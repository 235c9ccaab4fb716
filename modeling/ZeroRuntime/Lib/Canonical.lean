import ZeroRuntime.Lib.Value

/-!
# ZeroRuntime.Lib.Canonical

The order a value is written in when it is digested: the entries of every mapping sorted by key.
`canonical skip` also leaves out the entries with a key in `skip`, at every depth.
-/

namespace ZeroRuntime
namespace Lib
namespace Val

def insertEntry (e : String × Val) : List (String × Val) → List (String × Val)
  | [] => [e]
  | e' :: es => if TextLe e.1 e'.1 then e :: e' :: es else e' :: insertEntry e es

mutual
def canonical (skip : String → Bool) : Val → Val
  | list xs => list (canonicalItems skip xs)
  | dict kvs => dict (canonicalEntries skip kvs)
  | x => x

def canonicalItems (skip : String → Bool) : List Val → List Val
  | [] => []
  | x :: xs => canonical skip x :: canonicalItems skip xs

def canonicalEntries (skip : String → Bool) : List (String × Val) → List (String × Val)
  | [] => []
  | (k, x) :: kvs =>
    if skip k then canonicalEntries skip kvs
    else insertEntry (k, canonical skip x) (canonicalEntries skip kvs)
end

theorem canonicalEntries_skip {skip : String → Bool} {k : String} (h : skip k = true) (x : Val)
    (kvs : List (String × Val)) :
    canonicalEntries skip (kvs ++ [(k, x)]) = canonicalEntries skip kvs := by
  induction kvs with
  | nil =>
    simp only [List.nil_append, canonicalEntries, h, if_true]
  | cons e kvs ih =>
    obtain ⟨k', x'⟩ := e
    simp only [List.cons_append, canonicalEntries, ih]

/-- Sorted throughout, with nothing left out. -/
def sorted (x : Val) : Val := canonical (fun _ => false) x

end Val
end Lib
end ZeroRuntime
