import ZeroRuntime.Packages.Writes

/-!
# ZeroRuntime.Packages.Filed

The files of the queue over whole runs.

* `Filed`: every record is in the file of its package. Every call keeps that (`filed_step`).
* `Effect`: what a call does to the directory. It leaves it alone, adds a file, notes on a record
  that its package came again, or writes the record that an operation made.
-/

namespace ZeroRuntime
namespace Packages

open Lib Goals Queue

variable {host : Host} {q : RuntimePackageQueue}

/-! ## Lineage -/

def LineageOnly (lineage : Entries) : Prop := ∀ e ∈ lineage, e.1 ∈ queueLineageFields

variable {field : String} {lineage : Entries}

theorem mem_lineage_putPresent {v : Val} (h : LineageOnly lineage)
    (hfield : field ∈ queueLineageFields) : LineageOnly (putPresent field v lineage) := by
  intro e he
  unfold putPresent at he
  split at he
  · rcases Val.mem_put he with rfl | he
    · exact hfield
    · exact h e he
  · exact h e he

theorem mem_lineage_start (payload : Entries) :
    LineageOnly (replanLineage payload (continuationLineage payload)) := by
  have hcontinuation : LineageOnly (continuationLineage payload) := by
    unfold continuationLineage
    split
    · refine mem_lineage_putPresent (mem_lineage_putPresent ?_ (by decide)) (by decide)
      intro e he
      cases he
    · intro e he
      cases he
  unfold replanLineage
  split
  · exact mem_lineage_putPresent hcontinuation (by decide)
  · exact hcontinuation

theorem mem_lineageField {srcs : List Entries} {lineage' : Entries} (h : LineageOnly lineage)
    (hfield : field ∈ queueLineageFields) (hl : lineageField srcs lineage field = .ok lineage') :
    LineageOnly lineage' := by
  unfold lineageField at hl
  split at hl
  · cases hl
    exact h
  · split at hl
    · dsimp only at hl
      split at hl
      · cases hl
        exact h
      · split at hl
        · cases hl
          intro e he
          rcases Val.mem_put he with rfl | he
          · exact hfield
          · exact h e he
        · cases hl
    · cases hl
      exact mem_lineage_putPresent h hfield

theorem mem_extractQueueLineage {payload : Val} (h : extractQueueLineage payload = .ok lineage) :
    LineageOnly lineage := by
  unfold extractQueueLineage at h
  split at h
  · rename_i payload
    have hkeeps : LineageOnly (replanLineage payload (continuationLineage payload)) →
        LineageOnly lineage :=
      foldlM_relation (R := fun l l' => LineageOnly l → LineageOnly l') (fun _ hl => hl)
        (fun _ _ _ hab hbc hl => hbc (hab hl))
        (fun _ field _ hfield hstep hl => mem_lineageField hl hfield hstep) h
    exact hkeeps (mem_lineage_start payload)
  · cases h
    intro e he
    cases he

theorem touched_mergeField {preserve : Bool} {acc acc' : Entries × List LineageConflict}
    {value : Val} (hfield : field ∈ queueLineageFields)
    (h : mergeField preserve acc field value = .ok acc') :
    Touched queueLineageFields acc.1 acc'.1 := by
  obtain ⟨merged, conflicts⟩ := acc
  unfold mergeField at h
  dsimp only at h
  split at h
  · split at h
    · cases h
      exact (Touched.refl _ merged).put hfield _
    · split at h
      · cases h
        exact (Touched.refl _ merged).put hfield _
      · cases h
  · split at h
    · cases h
      exact (Touched.refl _ merged).put hfield _
    · split at h
      · cases h
        exact Touched.refl _ merged
      · cases h
        exact Touched.refl _ merged

theorem touched_mergeQueueLineage {target merged : Entries} {source : Val} {preserve : Bool}
    {conflicts : List LineageConflict}
    (h : mergeQueueLineage target source preserve = .ok (merged, conflicts)) :
    Touched queueLineageFields target merged := by
  unfold mergeQueueLineage at h
  obtain ⟨incoming, hincoming, h⟩ := bind_eq_ok.mp h
  exact foldlM_relation (R := fun acc acc' : Entries × List LineageConflict =>
      Touched queueLineageFields acc.1 acc'.1) (fun _ => Touched.refl _ _)
    (fun _ _ _ hab hbc => hab.trans hbc)
    (fun _ e _ he hstep => touched_mergeField (mem_extractQueueLineage hincoming e he) hstep) h

/-! ## Calls -/

/-- Every record is in the file of its package. -/
def Filed (host : Host) (q : RuntimePackageQueue) : Prop :=
  ∀ name record, q.files.get? name = some record →
    fileName host (textAt "package_id" record) = .ok name

def RuntimePackageQueue.put (q : RuntimePackageQueue) (name : String) (record : Entries) :
    RuntimePackageQueue := { q with files := q.files.set name record }

/-- The keys that a package that comes again writes. -/
def notedKeys : List String := "queue_idempotency_events" :: "queue_admission" :: queueLineageFields

/-- What a call does to the files. -/
inductive Effect (host : Host) (q : RuntimePackageQueue) (call : Call) : RuntimePackageQueue → Prop
  | same : Effect host q call q
  | added {name : String} {record : Entries} : q.files.get? name = none → status record = "queued" →
      fileName host (textAt "package_id" record) = .ok name → Effect host q call (q.put name record)
  | noted {name : String} {r r' : Entries} : q.files.get? name = some r → Touched notedKeys r r' →
      Effect host q call (q.put name r')
  | operated {name packageId : String} {r r' : Entries} {c : RecordCall} :
      call = .onRecord packageId c none ∨ call = .claimNext none ∧ c = .claim →
      readRecord host q packageId = .ok (name, r) →
      c.change host packageId r = .ok (.written r') → Effect host q call (q.put name r')

variable {packageId : String} {record : Entries}

variable {name : String}

theorem readRecord_ok (h : readRecord host q packageId = .ok (name, record)) :
    fileName host packageId = .ok name ∧ q.files.get? name = some record := by
  unfold readRecord at h
  obtain ⟨name', hname, h⟩ := bind_eq_ok.mp h
  split at h
  · cases h
  · rename_i record' hget
    cases h
    exact ⟨hname, hget⟩

theorem readRecord_of_file (hname : fileName host packageId = .ok name)
    (hget : q.files.get? name = some record) :
    readRecord host q packageId = .ok (name, record) := by
  refine bind_eq_ok.mpr ⟨name, hname, ?_⟩
  rw [hget]

/-- What is written goes to the file of its package. -/
theorem writeRecord_cases {record : Entries} {trouble : Option Err} {name : String}
    (hname : fileName host (textAt "package_id" record) = .ok name) :
    (∃ e, writeRecord host q record trouble = (.error e, q)) ∨
      trouble = none ∧ writeRecord host q record trouble = (.ok (some record), q.put name record) := by
  unfold writeRecord
  cases trouble with
  | some e => exact .inl ⟨e, rfl⟩
  | none =>
    rw [hname]
    exact .inr ⟨rfl, rfl⟩

/-- A record stays in its file if its id is not written. -/
theorem fileName_touched {keys : List String} {r r' : Entries} (h : Touched keys r r')
    (hkeys : "package_id" ∉ keys) :
    fileName host (textAt "package_id" r') = fileName host (textAt "package_id" r) := by
  rw [textAt_congr (h _ hkeys)]

theorem onRecord_effect (hfiled : Filed host q) {call : Call} {c : RecordCall}
    {trouble : Option Err}
    (hcall : trouble = none → call = .onRecord packageId c none ∨ call = .claimNext none ∧ c = .claim)
    : Effect host q call (onRecord host q packageId c trouble).2 := by
  unfold onRecord
  cases hread : readRecord host q packageId with
  | error e => exact .same
  | ok found =>
    obtain ⟨name, r⟩ := found
    dsimp only
    cases hchange : c.change host packageId r with
    | error e => exact .same
    | ok outcome =>
      cases outcome with
      | kept record => exact .same
      | written r' =>
        obtain ⟨-, hget⟩ := readRecord_ok hread
        have hname : fileName host (textAt "package_id" r') = .ok name :=
          (fileName_touched (stays_change hchange).own (by decide)).trans (hfiled name r hget)
        rcases @writeRecord_cases host q _ trouble _ hname with ⟨e, hwrite⟩ | ⟨hnone, hwrite⟩
        · dsimp only
          rw [hwrite]
          exact .same
        · dsimp only
          rw [hwrite]
          exact .operated (hcall hnone) hread hchange

variable {package : Entries} {matched : List (String × String)}

theorem touched_duplicateRecord {existing merged : Entries} {now : String}
    (h : duplicateRecord existing package packageId now matched = .ok merged) :
    Touched notedKeys existing merged := by
  unfold duplicateRecord at h
  obtain ⟨⟨r₁, conflicts⟩, h₁, h⟩ := bind_eq_ok.mp h
  obtain ⟨r₂, h₂, h⟩ := bind_eq_ok.mp h
  cases h
  have hmerged : Touched notedKeys existing r₁ :=
    touched_mono (touched_mergeQueueLineage h₁) fun _ hk =>
      List.mem_cons_of_mem _ (List.mem_cons_of_mem _ hk)
  refine Touched.put (by decide) _ (hmerged.trans ?_)
  unfold appendTo at h₂
  split at h₂
  · cases h₂
    exact (Touched.refl _ _).put (by decide) _
  · cases h₂
    exact (Touched.refl _ _).put (by decide) _
  · cases h₂

theorem newRecord_queued (h : newRecord package = .ok record) :
    status record = "queued" ∧ textAt "package_id" record = textAt "package_id" package := by
  unfold newRecord at h
  obtain ⟨lineage, hlineage, h⟩ := bind_eq_ok.mp h
  cases h
  constructor
  · refine textAt_of_str ?_
    change Val.getIn "status" (Val.put "runtime_state" _ (Val.put "status" _ _)) = _
    rw [Val.getIn_put, if_neg (by decide), Val.getIn_put, if_pos rfl]
  · refine textAt_congr ?_
    have hlineage' : Touched queueLineageFields package (putAll lineage package) :=
      touched_putAll (mem_extractQueueLineage hlineage)
    change Val.getIn "package_id" (Val.put "runtime_state" _ (Val.put "status" _ _)) = _
    rw [Val.getIn_put, if_neg (by decide), Val.getIn_put, if_neg (by decide)]
    exact hlineage' _ (by decide)

theorem mem_listPackages : record ∈ listPackages q ↔ ∃ name, q.files.get? name = some record := by
  unfold listPackages
  rw [Dict.mem_values]
  refine exists_congr fun name => ?_
  rw [Dict.get?_sortKeys]

/-- What a package is found to repeat is a record of the queue. -/
theorem duplicateOf_some {existing : Entries}
    (h : duplicateOf host q package = .ok (some (existing, matched))) :
    ∃ name, q.files.get? name = some existing := by
  unfold duplicateOf at h
  obtain ⟨name, -, h⟩ := bind_eq_ok.mp h
  obtain ⟨duplicate, hduplicate, h⟩ := bind_eq_ok.mp h
  split at h
  · cases duplicate with
    | none => cases h
    | some found =>
      obtain ⟨existing', matched'⟩ := found
      cases h
      unfold duplicateIdentity at hduplicate
      split at hduplicate
      · cases hduplicate
      · split at hduplicate
        · cases hduplicate
        · rename_i existing'' hfind
          obtain ⟨shared, -, hduplicate⟩ := bind_eq_ok.mp hduplicate
          cases hduplicate
          obtain ⟨record, hrecord, rfl⟩ := List.mem_map.mp (List.mem_of_find?_eq_some hfind)
          exact mem_listPackages.mp hrecord
  · rename_i record hget
    obtain ⟨existingSession, -, h⟩ := bind_eq_ok.mp h
    obtain ⟨incomingSession, -, h⟩ := bind_eq_ok.mp h
    split at h
    · cases h
    · cases h
      exact ⟨name, hget⟩

theorem duplicateOf_none (h : duplicateOf host q package = .ok none) :
    ∃ name, fileName host (textAt "package_id" package) = .ok name ∧ q.files.get? name = none := by
  unfold duplicateOf at h
  obtain ⟨name, hname, h⟩ := bind_eq_ok.mp h
  obtain ⟨duplicate, -, h⟩ := bind_eq_ok.mp h
  split at h
  · rename_i hget
    exact ⟨name, hname, hget⟩
  · obtain ⟨existingSession, -, h⟩ := bind_eq_ok.mp h
    obtain ⟨incomingSession, -, h⟩ := bind_eq_ok.mp h
    split at h
    · cases h
    · cases h

theorem enqueue_effect (hfiled : Filed host q) (call : Call) (package : Entries) (now : String)
    (trouble : Option Err) : Effect host q call (enqueue host q package now trouble).2 := by
  unfold enqueue
  cases hadmitted : admittedRecord host q package now with
  | error e => exact .same
  | ok record =>
    dsimp only
    unfold admittedRecord at hadmitted
    obtain ⟨duplicate, hduplicate, hadmitted⟩ := bind_eq_ok.mp hadmitted
    cases duplicate with
    | none =>
      obtain ⟨hstatus, hid⟩ := newRecord_queued hadmitted
      obtain ⟨name, hname, hfree⟩ := duplicateOf_none hduplicate
      rw [← hid] at hname
      rcases @writeRecord_cases host q _ trouble _ hname with ⟨e, hwrite⟩ | ⟨-, hwrite⟩
      · rw [hwrite]
        exact .same
      · rw [hwrite]
        exact .added hfree hstatus hname
    | some found =>
      obtain ⟨existing, matched⟩ := found
      obtain ⟨name, hget⟩ := duplicateOf_some hduplicate
      have htouched := touched_duplicateRecord hadmitted
      have hname : fileName host (textAt "package_id" record) = .ok name :=
        (fileName_touched htouched (by decide)).trans (hfiled name existing hget)
      rcases @writeRecord_cases host q _ trouble _ hname with ⟨e, hwrite⟩ | ⟨-, hwrite⟩
      · rw [hwrite]
        exact .same
      · rw [hwrite]
        exact .noted hget htouched

theorem step_effect (hfiled : Filed host q) (call : Call) :
    Effect host q call ((runtimePackageQueue host).step q call).2 := by
  cases call with
  | enqueue package now trouble => exact enqueue_effect hfiled _ package now trouble
  | claimNext trouble =>
    change Effect host q _ (claimNext host q trouble).2
    unfold claimNext
    split
    · exact .same
    · split
      · exact .same
      · exact onRecord_effect hfiled fun hnone => .inr ⟨by rw [hnone], rfl⟩
  | onRecord packageId c trouble =>
    exact onRecord_effect hfiled fun hnone => .inl (by rw [hnone])

theorem get?_put (q : RuntimePackageQueue) (name name' : String) (record : Entries) :
    (q.put name record).files.get? name' =
      if name' = name then some record else q.files.get? name' := Dict.get?_set ..

theorem filed_put (hfiled : Filed host q)
    (hname : fileName host (textAt "package_id" record) = .ok name) :
    Filed host (q.put name record) := by
  intro name' record' hget
  rw [get?_put] at hget
  split at hget
  · rename_i heq
    cases hget
    exact heq ▸ hname
  · exact hfiled name' record' hget

theorem filed_step (hfiled : Filed host q) (call : Call) :
    Filed host ((runtimePackageQueue host).step q call).2 := by
  generalize hnext : ((runtimePackageQueue host).step q call).2 = q'
  have heffect := step_effect hfiled call
  rw [hnext] at heffect
  cases heffect with
  | same => exact hfiled
  | added _ _ hname => exact filed_put hfiled hname
  | noted hget htouched =>
    exact filed_put hfiled ((fileName_touched htouched (by decide)).trans (hfiled _ _ hget))
  | operated _ hread hchange =>
    exact filed_put hfiled ((fileName_touched (stays_change hchange).own (by decide)).trans
      (hfiled _ _ (readRecord_ok hread).2))

theorem filed_empty (host : Host) : Filed host {} := by
  intro name record hget
  have hnone : ({} : RuntimePackageQueue).files.get? name = none := Dict.get?_empty name
  rw [hnone] at hget
  cases hget

theorem filed_run (host : Host) (calls : List Call) :
    Filed host ((runtimePackageQueue host).run {} calls) := by
  have hkeeps : ∀ q call, Filed host q → Filed host ((runtimePackageQueue host).step q call).2 :=
    fun _ call hfiled => filed_step hfiled call
  exact Machine.run_invariant hkeeps calls (filed_empty host)

/-- Two files hold records of two packages. -/
def OneFileEach (q : RuntimePackageQueue) : Prop :=
  ∀ name name' r r', q.files.get? name = some r → q.files.get? name' = some r' →
    textAt "package_id" r = textAt "package_id" r' → name = name'

/-- What an operation writes on a record is found in the file. -/
theorem onRecord_written (hfiled : Filed host q) {r r' : Entries} {c : RecordCall}
    (hread : readRecord host q packageId = .ok (name, r))
    (hchange : c.change host packageId r = .ok (.written r')) :
    onRecord host q packageId c none = (.ok (some r'), q.put name r') := by
  obtain ⟨-, hget⟩ := readRecord_ok hread
  have hname : fileName host (textAt "package_id" r') = .ok name :=
    (fileName_touched (stays_change hchange).own (by decide)).trans (hfiled name r hget)
  unfold onRecord
  rw [hread]
  dsimp only
  rw [hchange]
  dsimp only
  rcases @writeRecord_cases host q r' none name hname with ⟨e, hwrite⟩ | ⟨-, hwrite⟩
  · unfold writeRecord at hwrite
    rw [hname] at hwrite
    cases hwrite
  · exact hwrite

end Packages
end ZeroRuntime
