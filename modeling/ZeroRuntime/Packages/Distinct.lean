import ZeroRuntime.Packages.Filed

/-!
# ZeroRuntime.Packages.Distinct

What becomes of a package whose id and whose work are new to the queue.

* `EntersNew`: it is stored in a record of its own, and the records that were there stay.
* `entersNew_iff`: that is so if and only if no other record has the file that its id is cut down
  to, and it can be read and written.
-/

namespace ZeroRuntime
namespace Packages

open Lib Goals Queue

variable {host : Host} {q : RuntimePackageQueue}

/-- `status`, without the progress snapshot. -/
def storedUnder (host : Host) (q : RuntimePackageQueue) (packageId : String) : Except Err Entries :=
  (readRecord host q packageId).map Prod.snd

/-- No record is of this package, by its id or by its work. -/
structure Unknown (host : Host) (q : RuntimePackageQueue) (package : Entries) : Prop where
  id : ∀ name record, q.files.get? name = some record →
    textAt "package_id" record ≠ textAt "package_id" package
  work : duplicateIdentity host.digest (.dict package) ((listPackages q).map .dict) = .ok none

/-- The package is stored in a record of its own, which its id then finds, and every record that was
there is as it was. -/
def EntersNew (host : Host) (q : RuntimePackageQueue) (package : Entries) (answer : Answered) :
    Prop :=
  ∃ record, answer.1 = .ok (some record) ∧
    textAt "package_id" record = textAt "package_id" package ∧ status record = "queued" ∧
    storedUnder host answer.2 (textAt "package_id" package) = .ok record ∧
    ∀ name r, q.files.get? name = some r → answer.2.files.get? name = some r

theorem duplicateOf_free {package : Entries} {name : String} (hunknown : Unknown host q package)
    (hname : fileName host (textAt "package_id" package) = .ok name)
    (hfree : q.files.get? name = none) : duplicateOf host q package = .ok none := by
  unfold duplicateOf
  refine bind_eq_ok.mpr ⟨name, hname, bind_eq_ok.mpr ⟨none, hunknown.work, ?_⟩⟩
  rw [hfree]
  rfl

/-- In the file of an id there can be the record of another id only. -/
theorem free_of_entersNew {package : Entries} {name : String} {answer : Answered}
    (hunknown : Unknown host q package)
    (hname : fileName host (textAt "package_id" package) = .ok name)
    (h : EntersNew host q package answer) : q.files.get? name = none := by
  obtain ⟨record, -, hid, -, hfound, hkept⟩ := h
  cases hget : q.files.get? name with
  | none => rfl
  | some r =>
    have hread := readRecord_of_file hname (hkept name r hget)
    unfold storedUnder at hfound
    rw [hread] at hfound
    have hsame : r = record := Except.ok.inj hfound
    exact absurd (hsame ▸ hid) (hunknown.id name r hget)

theorem entersNew_iff (host : Host) (q : RuntimePackageQueue) (package : Entries) (now : String)
    (trouble : Option Err) {name : String} (hunknown : Unknown host q package)
    (hname : fileName host (textAt "package_id" package) = .ok name) :
    EntersNew host q package (enqueue host q package now trouble) ↔
      q.files.get? name = none ∧ trouble = none ∧
        ∃ lineage, extractQueueLineage (.dict package) = .ok lineage := by
  have hadmitted : q.files.get? name = none → admittedRecord host q package now =
      newRecord package := by
    intro hfree
    unfold admittedRecord
    rw [duplicateOf_free hunknown hname hfree]
    rfl
  constructor
  · intro h
    have hfree := free_of_entersNew hunknown hname h
    obtain ⟨record, hanswer, -⟩ := h
    unfold enqueue at hanswer
    rw [hadmitted hfree] at hanswer
    cases hnew : newRecord package with
    | error e =>
      rw [hnew] at hanswer
      cases hanswer
    | ok record' =>
      rw [hnew] at hanswer
      obtain ⟨lineage, hlineage, -⟩ := bind_eq_ok.mp hnew
      refine ⟨hfree, ?_, lineage, hlineage⟩
      cases trouble with
      | none => rfl
      | some e => cases hanswer
  · rintro ⟨hfree, rfl, lineage, hlineage⟩
    obtain ⟨record, hrecord⟩ : ∃ record, newRecord package = .ok record :=
      ⟨_, bind_eq_ok.mpr ⟨lineage, hlineage, rfl⟩⟩
    obtain ⟨hqueued, hid⟩ := newRecord_queued hrecord
    have hwrite : enqueue host q package now none = (.ok (some record), q.put name record) := by
      unfold enqueue
      rw [hadmitted hfree, hrecord]
      dsimp only
      unfold writeRecord
      dsimp only
      rw [hid, hname]
      rfl
    rw [hwrite]
    refine ⟨record, rfl, hid, hqueued, ?_, fun n r hget => ?_⟩
    · unfold storedUnder
      rw [readRecord_of_file hname ((get?_put q name name record).trans (if_pos rfl))]
      rfl
    · have hne : n ≠ name := by
        rintro rfl
        rw [hfree] at hget
        cases hget
      exact ((get?_put q name n record).trans (if_neg hne)).trans hget

/-- A package with an id, and nothing that says what work it is. -/
def bare (packageId : String) : Entries := [("package_id", .str packageId)]

theorem get?_start (name : String) : ({} : RuntimePackageQueue).files.get? name = none :=
  Dict.get?_empty name

theorem fileName_slash : fileName plainHost (textAt "package_id" (bare "a/b")) = .ok "a_b.json" :=
  rfl

theorem unknown_start : Unknown plainHost {} (bare "a/b") where
  id name record hget := by
    rw [get?_start] at hget
    cases hget
  work := rfl

theorem entersNew_iff_first :
    EntersNew plainHost {} (bare "a/b") (enqueue plainHost {} (bare "a/b") "t" none) :=
  (entersNew_iff plainHost {} (bare "a/b") "t" none unknown_start fileName_slash).mpr
    ⟨rfl, rfl, _, rfl⟩

/-- The id `a/b` is cut down to `a_b`, and the package is noted on the record of that id. -/
theorem distinct_package_lost : ∃ q, Unknown plainHost q (bare "a/b") ∧
    fileName plainHost (textAt "package_id" (bare "a/b")) = .ok "a_b.json" ∧
    ¬EntersNew plainHost q (bare "a/b") (enqueue plainHost q (bare "a/b") "t" none) := by
  let q := RuntimePackageQueue.put {} "a_b.json" (bare "a_b")
  have hunknown : Unknown plainHost q (bare "a/b") := by
    refine ⟨fun name record hget => ?_, rfl⟩
    rw [get?_put] at hget
    split at hget
    · cases hget
      decide
    · rw [get?_start] at hget
      cases hget
  refine ⟨q, hunknown, fileName_slash, fun h => ?_⟩
  have htaken : q.files.get? "a_b.json" = some (bare "a_b") := rfl
  rw [free_of_entersNew hunknown fileName_slash h] at htaken
  cases htaken

end Packages
end ZeroRuntime
