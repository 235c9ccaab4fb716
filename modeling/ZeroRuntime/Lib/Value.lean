import ZeroRuntime.Lib.Text

/-!
# ZeroRuntime.Lib.Value

Values of a dynamically typed language, as far as records of them are read: `none`, booleans,
integers, strings, lists and string-keyed mappings. A value of any other type is `other`, known by
its text, its truth value and whether it can be hashed.

* `truthy`, `str`, `eq` are `bool(x)`, `str(x)` and `x == y`; `text` is `str(x or "").strip()`.
* `find`, `getD` read a mapping; `attr` is `x.get(key)`, which raises when `x` is no mapping.
* Reads that raise answer in `Except Err`.
-/

namespace ZeroRuntime
namespace Lib

/-- The exceptions the modelled code meets, with the message of those it raises itself. -/
inductive Err where
  | attributeError
  | typeError
  | keyError
  | valueError (message : String)
  | permissionError (message : String)
  | rejected (message : String)
  | osError
  | unicodeError
  | raised (message : String)
deriving DecidableEq, Repr

/-- A computation that comes to an end took every step on the way. -/
theorem bind_eq_ok {ε α β : Type} {x : Except ε α} {f : α → Except ε β} {b : β} :
    x >>= f = .ok b ↔ ∃ a, x = .ok a ∧ f a = .ok b := by
  cases x with
  | error e => exact ⟨(by intro h; cases h), (by rintro ⟨a, ha, -⟩; cases ha)⟩
  | ok a => exact ⟨fun h => ⟨a, rfl, h⟩, (by rintro ⟨a', ⟨⟩, h⟩; exact h)⟩

theorem map_eq_ok {ε α β : Type} {x : Except ε α} {f : α → β} {b : β} :
    x.map f = .ok b ↔ ∃ a, x = .ok a ∧ f a = b := by
  cases x with
  | error e => exact ⟨fun h => (by cases h), fun ⟨a, ha, _⟩ => (by cases ha)⟩
  | ok a =>
    refine ⟨fun h => ⟨a, rfl, Except.ok.inj h⟩, ?_⟩
    rintro ⟨a', ⟨⟩, h⟩
    exact congrArg Except.ok h

/-- A list of checks passes if each of them does. -/
theorem forM_eq_ok {ε α : Type} {f : α → Except ε Unit} {xs : List α} :
    xs.forM f = .ok () ↔ ∀ x ∈ xs, f x = .ok () := by
  induction xs with
  | nil => exact ⟨fun _ x hx => (by cases hx), fun _ => rfl⟩
  | cons x xs ih =>
    change (f x >>= fun _ => xs.forM f) = _ ↔ _
    rw [bind_eq_ok, List.forall_mem_cons, ← ih]
    exact ⟨fun ⟨_, hx, h⟩ => ⟨hx, h⟩, fun ⟨hx, h⟩ => ⟨(), hx, h⟩⟩

inductive Val where
  | none
  | bool (b : Bool)
  | int (n : Int)
  | str (s : String)
  | list (xs : List Val)
  | dict (kvs : List (String × Val))
  | other (text : String) (truth hashable : Bool)

namespace Val

def find (k : String) : List (String × Val) → Option Val
  | [] => Option.none
  | (k', v) :: kvs => if k = k' then some v else find k kvs

/-- `d[k] = v` on the entries of a mapping. -/
def put (k : String) (v : Val) : List (String × Val) → List (String × Val)
  | [] => [(k, v)]
  | (k', v') :: kvs => if k = k' then (k, v) :: kvs else (k', v') :: put k v kvs

def truthy : Val → Bool
  | none => false
  | bool b => b
  | int n => n ≠ 0
  | str s => s ≠ ""
  | list xs => !xs.isEmpty
  | dict kvs => !kvs.isEmpty
  | other _ t _ => t

/-- `x or y` -/
def orElse (x y : Val) : Val := if x.truthy then x else y

def isDict : Val → Bool
  | dict _ => true
  | _ => false

def isStr : Val → Bool
  | str _ => true
  | _ => false

mutual
/-- `repr(x)`, as characters. -/
def reprChars : Val → List Char
  | none => "None".toList
  | bool b => if b then "True".toList else "False".toList
  | int n => (toString n).toList
  | str s => Text.reprChars s.toList
  | list xs => '[' :: reprItems xs ++ [']']
  | dict kvs => '{' :: reprEntries kvs ++ ['}']
  | other t _ _ => t.toList

def reprItems : List Val → List Char
  | [] => []
  | [x] => reprChars x
  | x :: y :: xs => reprChars x ++ [',', ' '] ++ reprItems (y :: xs)

def reprEntries : List (String × Val) → List Char
  | [] => []
  | [(k, x)] => Text.reprChars k.toList ++ [':', ' '] ++ reprChars x
  | (k, x) :: e :: kvs =>
    Text.reprChars k.toList ++ [':', ' '] ++ reprChars x ++ [',', ' '] ++ reprEntries (e :: kvs)
end

/-- `str(x)` -/
def toText : Val → String
  | str s => s
  | x => String.ofList x.reprChars

/-- `str(x or "").strip()` -/
def text (x : Val) : String := if x.truthy then Text.strip x.toText else ""

theorem text_str (s : String) : (str s).text = Text.strip s := by
  unfold text truthy
  by_cases hs : s = ""
  · subst hs
    rfl
  · simp [hs, toText]

theorem strip_text (x : Val) : Text.strip x.text = x.text := by
  unfold text
  split
  · exact Text.strip_strip x.toText
  · rfl

mutual
/-- `x == y`: booleans are the integers 0 and 1, mappings are compared key by key. -/
def eq : Val → Val → Bool
  | none, none => true
  | bool a, bool b => a == b
  | bool a, int n => (if a then 1 else 0) == n
  | int n, bool a => n == (if a then 1 else 0)
  | int a, int b => a == b
  | str a, str b => a == b
  | list xs, list ys => eqItems xs ys
  | dict xs, dict ys => xs.length == ys.length && eqEntries xs ys
  | other t _ _, other t' _ _ => t == t'
  | _, _ => false

def eqItems : List Val → List Val → Bool
  | [], [] => true
  | x :: xs, y :: ys => eq x y && eqItems xs ys
  | _, _ => false

def eqEntries : List (String × Val) → List (String × Val) → Bool
  | [], _ => true
  | (k, x) :: xs, ys =>
    (match find k ys with
      | some y => eq x y
      | Option.none => false) && eqEntries xs ys
end

/-- Whether `hash(x)` is defined. -/
def hashable : Val → Bool
  | list _ => false
  | dict _ => false
  | other _ _ h => h
  | _ => true

/-- `x in xs` -/
def elem (x : Val) (xs : List Val) : Bool := xs.any (eq x)

/-- `list(dict.fromkeys(xs))` on hashable items: first occurrences, in order. -/
def dedup : List Val → List Val
  | [] => []
  | x :: xs => x :: (dedup xs).filter (fun y => !eq x y)

/-- The value of `k`, `none` when it is absent. -/
def getIn (k : String) (kvs : List (String × Val)) : Val := (find k kvs).getD none

/-- The entries of a mapping; anything else has none. -/
def entries : Val → List (String × Val)
  | dict kvs => kvs
  | _ => []

/-- `x.get(k, default)` -/
def attrD (x : Val) (k : String) (default : Val) : Except Err Val :=
  match x with
  | dict kvs => .ok ((find k kvs).getD default)
  | _ => .error .attributeError

/-- `x.get(k)` -/
def attr (x : Val) (k : String) : Except Err Val := x.attrD k none

/-- The items of a value that is iterated over. -/
def iterate : Val → Except Err (List Val)
  | list xs => .ok xs
  | str s => .ok (s.toList.map fun c => str (String.ofList [c]))
  | dict kvs => .ok (kvs.map fun e => str e.1)
  | _ => .error .typeError

/-- `k in x` for a mapping. -/
def hasKey (k : String) (kvs : List (String × Val)) : Bool := (find k kvs).isSome

@[simp] theorem find_put (k k' : String) (v : Val) (kvs : List (String × Val)) :
    find k' (put k v kvs) = if k' = k then some v else find k' kvs := by
  induction kvs with
  | nil => simp [put, find]
  | cons e kvs ih =>
    obtain ⟨a, b⟩ := e
    by_cases ha : k = a
    · subst ha
      by_cases h : k' = k <;> simp [put, find, h]
    · by_cases h : k' = a
      · subst h; simp [put, find, ha, Ne.symm ha]
      · simp [put, find, ha, h, ih]

@[simp] theorem getIn_put (k k' : String) (v : Val) (kvs : List (String × Val)) :
    getIn k' (put k v kvs) = if k' = k then v else getIn k' kvs := by
  by_cases h : k' = k <;> simp [getIn, h]

variable {k : String} {kvs : List (String × Val)}

variable {v : Val}

theorem put_of_not_mem (h : k ∉ kvs.map Prod.fst) : put k v kvs = kvs ++ [(k, v)] := by
  induction kvs with
  | nil => rfl
  | cons e es ih =>
    obtain ⟨k', v'⟩ := e
    rw [List.map_cons, List.mem_cons, not_or] at h
    rw [put, if_neg h.1, ih h.2, List.cons_append]

theorem keys_put_of_mem (h : k ∈ kvs.map Prod.fst) :
    (put k v kvs).map Prod.fst = kvs.map Prod.fst := by
  induction kvs with
  | nil => cases h
  | cons e es ih =>
    obtain ⟨k', v'⟩ := e
    rw [put]
    split
    · rename_i heq
      rw [List.map_cons, List.map_cons, heq]
    · rename_i hne
      rcases List.mem_cons.mp h with rfl | h
      · exact absurd rfl hne
      · rw [List.map_cons, List.map_cons, ih h]

theorem nodup_put (h : (kvs.map Prod.fst).Nodup) : ((put k v kvs).map Prod.fst).Nodup := by
  by_cases hmem : k ∈ kvs.map Prod.fst
  · rwa [keys_put_of_mem hmem]
  · rw [put_of_not_mem hmem, List.map_append, List.map_singleton]
    exact List.nodup_append.mpr ⟨h, List.pairwise_singleton _ _, fun a ha b hb hab => by
      rw [List.mem_singleton] at hb
      have hk : a = k := hab.trans hb
      exact hmem (hk ▸ ha)⟩

theorem mem_put {e : String × Val} (h : e ∈ put k v kvs) : e = (k, v) ∨ e ∈ kvs := by
  induction kvs with
  | nil => exact .inl (List.mem_singleton.mp h)
  | cons a kvs ih =>
    simp only [put] at h
    split at h
    · exact (List.mem_cons.mp h).imp_right (List.mem_cons_of_mem _)
    · rcases List.mem_cons.mp h with h | h
      · exact .inr (h ▸ List.mem_cons_self)
      · exact (ih h).imp_right (List.mem_cons_of_mem _)

theorem find_append (k : String) (xs ys : List (String × Val)) :
    find k (xs ++ ys) = (find k xs).or (find k ys) := by
  induction xs with
  | nil => rfl
  | cons e xs ih =>
    obtain ⟨k', v⟩ := e
    by_cases hk : k = k'
    · simp [find, hk]
    · simpa [find, hk] using ih

theorem find_foldl_put {fields : List (String × String)} (h : ∀ e ∈ fields, e.1 ≠ k)
    (head : List (String × Val)) :
    find k (fields.foldl (fun acc e => put e.1 (.str e.2) acc) head) =
      find k head := by
  induction fields generalizing head with
  | nil => rfl
  | cons e fields ih =>
    have hne : k ≠ e.1 := Ne.symm (h e List.mem_cons_self)
    rw [List.foldl_cons, ih fun e' he' => h e' (List.mem_cons_of_mem _ he')]
    simp [hne]

theorem mem_dedup {x : Val} {xs : List Val} (h : x ∈ dedup xs) : x ∈ xs := by
  induction xs with
  | nil => exact h
  | cons y ys ih =>
    rcases List.mem_cons.mp h with rfl | h
    · exact List.mem_cons_self
    · exact List.mem_cons_of_mem _ (ih (List.mem_of_mem_filter h))

end Val
end Lib
end ZeroRuntime
