import ZeroRuntime.Lib.Value

/-!
# ZeroRuntime.Lib.Digest

A digest without collisions, to run examples with.

* `Val.encode`: a value as characters, such that the end of the value shows. `encode_append_inj`: two
  values that start the same text are the same.
* `tagged`: a digest that starts with a tag of twenty characters. `tagged_injective`: whatever the
  tag, no two values share their digest.
-/

namespace ZeroRuntime
namespace Lib
namespace Val

/-! ## Texts and numbers -/

/-- Every character after a mark, and another mark at the end. -/
def encodeChars : List Char → List Char
  | [] => ['.']
  | c :: cs => '+' :: c :: encodeChars cs

def encodeNat : ℕ → List Char
  | 0 => ['.']
  | n + 1 => '+' :: encodeNat n

def encodeBool (b : Bool) : Char := if b then 't' else 'f'

theorem encodeChars_append_inj {cs cs' rest rest' : List Char}
    (h : encodeChars cs ++ rest = encodeChars cs' ++ rest') : cs = cs' ∧ rest = rest' := by
  induction cs generalizing cs' with
  | nil =>
    cases cs' with
    | nil => exact ⟨rfl, (List.cons.inj h).2⟩
    | cons c' cs' => simp [encodeChars] at h
  | cons c cs ih =>
    cases cs' with
    | nil => simp [encodeChars] at h
    | cons c' cs' =>
      obtain ⟨-, h⟩ := List.cons.inj h
      obtain ⟨hc, h⟩ := List.cons.inj h
      obtain ⟨hcs, hrest⟩ := ih h
      exact ⟨by rw [hc, hcs], hrest⟩

theorem encodeNat_append_inj {n n' : ℕ} {rest rest' : List Char}
    (h : encodeNat n ++ rest = encodeNat n' ++ rest') : n = n' ∧ rest = rest' := by
  induction n generalizing n' with
  | zero =>
    cases n' with
    | zero => exact ⟨rfl, (List.cons.inj h).2⟩
    | succ n' => simp [encodeNat] at h
  | succ n ih =>
    cases n' with
    | zero => simp [encodeNat] at h
    | succ n' =>
      obtain ⟨hn, hrest⟩ := ih (List.cons.inj h).2
      exact ⟨by rw [hn], hrest⟩

theorem encodeBool_inj {b b' : Bool} (h : encodeBool b = encodeBool b') : b = b' := by
  cases b <;> cases b' <;> simp_all [encodeBool]

/-! ## Values -/

mutual
def encode : Val → List Char
  | none => ['n']
  | bool b => ['b', encodeBool b]
  | int (.ofNat n) => 'i' :: encodeNat n
  | int (.negSucc n) => 'j' :: encodeNat n
  | str s => 's' :: encodeChars s.toList
  | list xs => 'l' :: encodeItems xs
  | dict kvs => 'd' :: encodeEntries kvs
  | other t truth hashable =>
    'o' :: encodeBool truth :: encodeBool hashable :: encodeChars t.toList

def encodeItems : List Val → List Char
  | [] => ['.']
  | x :: xs => '+' :: (encode x ++ encodeItems xs)

def encodeEntries : List (String × Val) → List Char
  | [] => ['.']
  | (k, x) :: kvs => '+' :: (encodeChars k.toList ++ (encode x ++ encodeEntries kvs))
end

mutual
theorem encode_append_inj : {x y : Val} → {rest rest' : List Char} →
    encode x ++ rest = encode y ++ rest' → x = y ∧ rest = rest'
  | .none, y, rest, rest', h => by
    cases y with
    | none => exact ⟨rfl, (List.cons.inj h).2⟩
    | int n => cases n <;> simp [encode] at h
    | _ => simp [encode] at h
  | .bool b, y, rest, rest', h => by
    cases y with
    | bool b' =>
      obtain ⟨-, h⟩ := List.cons.inj h
      obtain ⟨hb, hrest⟩ := List.cons.inj h
      exact ⟨by rw [encodeBool_inj hb], hrest⟩
    | int n => cases n <;> simp [encode] at h
    | _ => simp [encode] at h
  | .int (.ofNat n), y, rest, rest', h => by
    cases y with
    | int n' =>
      cases n' with
      | ofNat n' =>
        obtain ⟨hn, hrest⟩ := encodeNat_append_inj (List.cons.inj h).2
        exact ⟨by rw [hn], hrest⟩
      | negSucc n' => simp [encode] at h
    | _ => simp [encode] at h
  | .int (.negSucc n), y, rest, rest', h => by
    cases y with
    | int n' =>
      cases n' with
      | ofNat n' => simp [encode] at h
      | negSucc n' =>
        obtain ⟨hn, hrest⟩ := encodeNat_append_inj (List.cons.inj h).2
        exact ⟨by rw [hn], hrest⟩
    | _ => simp [encode] at h
  | .str s, y, rest, rest', h => by
    cases y with
    | str s' =>
      obtain ⟨hs, hrest⟩ := encodeChars_append_inj (List.cons.inj h).2
      exact ⟨by rw [String.toList_inj.mp hs], hrest⟩
    | int n => cases n <;> simp [encode] at h
    | _ => simp [encode] at h
  | .list xs, y, rest, rest', h => by
    cases y with
    | list ys =>
      obtain ⟨hxs, hrest⟩ := encodeItems_append_inj (List.cons.inj h).2
      exact ⟨by rw [hxs], hrest⟩
    | int n => cases n <;> simp [encode] at h
    | _ => simp [encode] at h
  | .dict kvs, y, rest, rest', h => by
    cases y with
    | dict kvs' =>
      obtain ⟨hkvs, hrest⟩ := encodeEntries_append_inj (List.cons.inj h).2
      exact ⟨by rw [hkvs], hrest⟩
    | int n => cases n <;> simp [encode] at h
    | _ => simp [encode] at h
  | .other t truth hashable, y, rest, rest', h => by
    cases y with
    | other t' truth' hashable' =>
      obtain ⟨-, h⟩ := List.cons.inj h
      obtain ⟨htruth, h⟩ := List.cons.inj h
      obtain ⟨hhashable, h⟩ := List.cons.inj h
      obtain ⟨ht, hrest⟩ := encodeChars_append_inj h
      exact ⟨by rw [String.toList_inj.mp ht, encodeBool_inj htruth, encodeBool_inj hhashable], hrest⟩
    | int n => cases n <;> simp [encode] at h
    | _ => simp [encode] at h

theorem encodeItems_append_inj : {xs ys : List Val} → {rest rest' : List Char} →
    encodeItems xs ++ rest = encodeItems ys ++ rest' → xs = ys ∧ rest = rest'
  | [], ys, rest, rest', h => by
    cases ys with
    | nil => exact ⟨rfl, (List.cons.inj h).2⟩
    | cons y ys => simp [encodeItems] at h
  | x :: xs, ys, rest, rest', h => by
    cases ys with
    | nil => simp [encodeItems] at h
    | cons y ys =>
      rw [encodeItems, encodeItems, List.cons_append, List.cons_append, List.cons.injEq,
        List.append_assoc, List.append_assoc] at h
      obtain ⟨hx, h⟩ := encode_append_inj h.2
      obtain ⟨hxs, hrest⟩ := encodeItems_append_inj h
      exact ⟨by rw [hx, hxs], hrest⟩

theorem encodeEntries_append_inj : {kvs kvs' : List (String × Val)} → {rest rest' : List Char} →
    encodeEntries kvs ++ rest = encodeEntries kvs' ++ rest' → kvs = kvs' ∧ rest = rest'
  | [], kvs', rest, rest', h => by
    cases kvs' with
    | nil => exact ⟨rfl, (List.cons.inj h).2⟩
    | cons e' kvs' => simp [encodeEntries] at h
  | (k, x) :: kvs, kvs', rest, rest', h => by
    cases kvs' with
    | nil => simp [encodeEntries] at h
    | cons e' kvs' =>
      obtain ⟨k', x'⟩ := e'
      simp only [encodeEntries, List.cons_append, List.cons.injEq, List.append_assoc] at h
      obtain ⟨hk, h⟩ := encodeChars_append_inj h.2
      obtain ⟨hx, h⟩ := encode_append_inj h
      obtain ⟨hkvs, hrest⟩ := encodeEntries_append_inj h
      exact ⟨by rw [String.toList_inj.mp hk, hx, hkvs], hrest⟩
end

/-! ## Digests -/

/-- The first twenty characters of a text, filled up with points. -/
def tag (s : String) : List Char := (s.toList ++ List.replicate 20 '.').take 20

/-- A digest that starts with the tag of a text. -/
def tagged (text : Val → String) (v : Val) : String :=
  String.ofList (tag (text v) ++ encode v)

theorem length_tag (s : String) : (tag s).length = 20 := by
  unfold tag
  rw [List.length_take, List.length_append, List.length_replicate]
  omega

theorem tag_tagged (text : Val → String) (v : Val) : tag (tagged text v) = tag (text v) := by
  have hlength := length_tag (text v)
  unfold tagged
  rw [tag, String.toList_ofList, List.append_assoc, List.take_append_of_le_length hlength.ge,
    List.take_of_length_le hlength.le]

theorem take_tagged (text : Val → String) (v : Val) :
    Text.take 20 (tagged text v) = String.ofList (tag (text v)) := by
  have hlength := length_tag (text v)
  unfold tagged Text.take
  rw [String.toList_ofList, List.take_append_of_le_length hlength.ge,
    List.take_of_length_le hlength.le]

/-- The first character of a value is no space. -/
theorem encode_head (v : Val) : ∃ c ∈ encode v, Text.isSpace c = false := by
  cases v with
  | int n => cases n <;> exact ⟨_, List.mem_cons_self, by decide⟩
  | _ => exact ⟨_, List.mem_cons_self, by decide⟩

theorem strip_tagged (text : Val → String) (v : Val) : Text.strip (tagged text v) ≠ "" := by
  obtain ⟨c, hc, hspace⟩ := encode_head v
  refine Text.strip_ne_empty ?_ hspace
  unfold tagged
  rw [String.toList_ofList]
  exact List.mem_append_right _ hc

theorem tagged_injective (text : Val → String) : Function.Injective (tagged text) := by
  intro x y h
  have hchars := String.ofList_inj.mp h
  have hlength : (tag (text x)).length = (tag (text y)).length := by
    rw [length_tag, length_tag]
  have hencode := (List.append_inj hchars hlength).2
  have hnil : encode x ++ [] = encode y ++ [] := by rw [hencode]
  exact (encode_append_inj hnil).1

end Val
end Lib
end ZeroRuntime
