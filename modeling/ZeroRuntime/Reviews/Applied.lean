import ZeroRuntime.Reviews.Model

/-!
# ZeroRuntime.Reviews.Applied

What an applied review does to the files.

* `applyReview_applied`: the text of the copy goes over the target, whatever the target holds.
* `WritesReviewed` is what a reviewer expects: the target goes from the text of the diff to the text
  that the diff leads to. Two reviews of one file break it (`second_review_undoes_first`).
* `reviewsLawful`: what every run keeps to.
-/

namespace ZeroRuntime
namespace Reviews

open Lib

variable {host : Host} {w w' : World} {reviewId : String}

/-! ## One call -/

variable {p : Names}

theorem get?_logged {auditFile : Names} (line : String) (files : FileMap) (hp : p ≠ auditFile) :
    (logged auditFile line files).get? p = files.get? p := by
  unfold logged
  split
  · rename_i files' hwrite
    rw [(FileMap.write_ok hwrite).2, if_neg hp]
  · rfl

variable {record : ReviewRecord}

theorem pendingReview_ok (h : pendingReview w reviewId = .ok record) :
    w.reviews.get? reviewId = some record ∧ record.status = .pendingReview := by
  unfold pendingReview at h
  split at h
  · cases h
  · rename_i r hget
    split at h
    · cases h
    · rename_i hpending
      cases h
      exact ⟨hget, not_not.mp hpending⟩

theorem pendingReview_settled (hget : w.reviews.get? reviewId = some record)
    (hsettled : record.status ≠ .pendingReview) :
    pendingReview w reviewId =
      .error (.error ("review is not pending: " ++ record.status.text)) := by
  unfold pendingReview
  rw [hget]
  dsimp only
  rw [if_pos hsettled]

/-- The copy of a pending review goes over its target. -/
structure WritesCopy (host : Host) (w : World) (reviewId line : String) (record : ReviewRecord)
    (copy : Names) (text : String) (w' : World) : Prop where
  stored : w.reviews.get? reviewId = some record
  pending : record.status = .pendingReview
  found : findSandboxFile w.files record = some copy
  copied : w.files.get? copy = some text
  written : ∃ files, (∀ p, files.get? p = if p = record.target then some text else w.files.get? p) ∧
    w' = World.settle { w with files := logged host.auditFile line files } record .applied
      record.reason

/-- A call to apply a review leaves the store, or writes the copy. -/
theorem applyReview_cases (line : String) (failing : Option String) :
    ((applyReview host w reviewId line failing).1 ≠ .applied ∧
        (applyReview host w reviewId line failing).2.reviews = w.reviews) ∨
      ∃ record copy text, WritesCopy host w reviewId line record copy text
        (applyReview host w reviewId line failing).2 := by
  unfold applyReview
  cases hpending : pendingReview w reviewId with
  | error answer =>
    refine .inl ⟨?_, rfl⟩
    unfold pendingReview at hpending
    rintro rfl
    split at hpending
    · cases hpending
    · split at hpending <;> cases hpending
  | ok record =>
    obtain ⟨hstored, hstatus⟩ := pendingReview_ok hpending
    dsimp only
    split
    · exact .inl ⟨nofun, rfl⟩
    split
    · exact .inl ⟨nofun, rfl⟩
    split
    · exact .inl ⟨nofun, rfl⟩
    rename_i copy hfound
    split
    · exact .inl ⟨nofun, rfl⟩
    rename_i text hcopied
    split
    · exact .inl ⟨nofun, rfl⟩
    rename_i files hwrite
    split
    · exact .inl ⟨nofun, rfl⟩
    rename_i hdone
    cases failing with
    | some left => exact absurd rfl hdone
    | none =>
      exact .inr ⟨record, copy, text, hstored, hstatus, hfound, hcopied, files,
        (FileMap.write_ok hwrite).2, rfl⟩

variable {line : String} {failing : Option String}

theorem applyReview_applied (h : applyReview host w reviewId line failing = (.applied, w')) :
    ∃ record copy text, WritesCopy host w reviewId line record copy text w' := by
  rcases @applyReview_cases host w reviewId line failing with ⟨hne, -⟩ | hwrites
  · exact absurd (congrArg Prod.fst h) hne
  · rw [h] at hwrites
    exact hwrites

variable {text : String}

/-- Apart from the audit log, only the target changes. -/
theorem WritesCopy.frame {copy : Names} (h : WritesCopy host w reviewId line record copy text w')
    (hp : p ≠ host.auditFile) :
    w'.files.get? p = if p = record.target then some text else w.files.get? p := by
  obtain ⟨files, hfiles, rfl⟩ := h.written
  exact (get?_logged line files hp).trans (hfiles p)

theorem rejectReview_frame (reason line : String) (hp : p ≠ host.auditFile) :
    (rejectReview host w reviewId reason line).2.files.get? p = w.files.get? p := by
  unfold rejectReview
  split
  · rfl
  · exact get?_logged line w.files hp

theorem rejectReview_cases (reason line : String) :
    (rejectReview host w reviewId reason line).2.reviews = w.reviews ∨
      ∃ record, w.reviews.get? reviewId = some record ∧ record.status = .pendingReview ∧
        ∃ reason', (rejectReview host w reviewId reason line).2.reviews =
          w.reviews.set record.reviewId
            { record with status := .rejected, reason := reason' } := by
  unfold rejectReview
  cases hpending : pendingReview w reviewId with
  | error answer => exact .inl rfl
  | ok record =>
    obtain ⟨hstored, hstatus⟩ := pendingReview_ok hpending
    exact .inr ⟨record, hstored, hstatus, if reason = "" then record.reason else some reason, rfl⟩

variable {intent : CodeEditIntent}

/-- A path below the workspace is not cut down any more. -/
theorem normalizePath_path (h : Text.startsWith intent.path "workspace/" = true) :
    normalizePath intent.path = intent.path := by
  have hslashes : Text.replaceChar '\\' '/' intent.path = intent.path := by
    refine Text.replaceChar_of_notMem fun hmem => ?_
    unfold CodeEditIntent.path Text.strip at hmem
    rw [String.toList_ofList] at hmem
    have hreplaced := Text.mem_of_mem_stripChars hmem
    unfold Text.replaceChar at hreplaced
    rw [String.toList_ofList] at hreplaced
    obtain ⟨c, -, hc⟩ := List.mem_map.mp hreplaced
    split at hc
    · cases hc
    · rename_i hne
      exact hne hc
  obtain ⟨rest, hrest⟩ := PathText.startsWith_iff.mp h
  have hfirst : intent.path.toList = 'w' :: ("orkspace/" ++ rest).toList := by
    rw [hrest, String.toList_append, String.toList_append]
    rfl
  unfold normalizePath
  rw [hslashes, hfirst, List.dropWhile_cons_of_neg (by decide), ← hfirst, String.ofList_toList]

theorem startsWith_of_safe (h : unsafeReason intent = none) :
    Text.startsWith intent.path "workspace/" = true := by
  unfold unsafeReason at h
  dsimp only at h
  split at h
  · cases h
  split at h
  · cases h
  split at h
  · cases h
  · rename_i hstarts
    rw [Bool.not_eq_false] at hstarts
    exact hstarts

/-- A review is made of the text that its target holds, and the text it leads to is in its copy. -/
structure Makes (host : Host) (w : World) (record : ReviewRecord) (w' : World) : Prop where
  pending : record.status = .pendingReview
  stored : w'.reviews = w.reviews.set record.reviewId record
  original : w.files.get? record.target = some record.diff.original
  replaced : ∃ old new, record.diff.modified = replaceOnce old new record.diff.original
  copied : ∀ p, p ≠ host.auditFile → w'.files.get? p =
    if p = record.sandboxPath then some record.diff.modified else w.files.get? p

theorem runCodeEditReviewTask_cases (root : Names) (taskText reviewId line : String) :
    (∃ record, record.reviewId = reviewId ∧
        (runCodeEditReviewTask host w root taskText reviewId line).1 = .pending reviewId ∧
        Makes host w record (runCodeEditReviewTask host w root taskText reviewId line).2) ∨
      (∀ id, (runCodeEditReviewTask host w root taskText reviewId line).1 ≠ .pending id) ∧
        (runCodeEditReviewTask host w root taskText reviewId line).2 = w := by
  unfold runCodeEditReviewTask
  dsimp only
  split
  · exact .inr ⟨nofun, rfl⟩
  split
  · exact .inr ⟨nofun, rfl⟩
  rename_i hsafe
  split
  · exact .inr ⟨nofun, rfl⟩
  split
  · exact .inr ⟨nofun, rfl⟩
  split
  · exact .inr ⟨nofun, rfl⟩
  rename_i original horiginal
  split
  · exact .inr ⟨nofun, rfl⟩
  split
  · exact .inr ⟨nofun, rfl⟩
  rename_i files hwrite
  have hpath := normalizePath_path (startsWith_of_safe hsafe)
  refine .inl ⟨editReview root (host.parseCodeEditIntent (Text.strip taskText)) reviewId original,
    rfl, rfl, ⟨rfl, rfl, ?_, ⟨_, _, rfl⟩, fun p hp => ?_⟩⟩
  · unfold ReviewRecord.target editReview
    rw [hpath]
    exact horiginal
  · exact (get?_logged line files hp).trans ((FileMap.write_ok hwrite).2 p)

/-! ## The store -/

def ReviewRecord.made (record : ReviewRecord) : ReviewRecord :=
  { record with status := .pendingReview, reason := none }

/-- Reviews are stored under their ids. -/
def Keyed (w : World) : Prop :=
  ∀ id record, w.reviews.get? id = some record → record.reviewId = id

/-- A review stays what it was made as, and as it is once it is settled. -/
def Continues (w w' : World) : Prop :=
  ∀ id record, w.reviews.get? id = some record → ∃ record', w'.reviews.get? id = some record' ∧
    record'.made = record.made ∧ (record.status ≠ .pendingReview → record' = record)

theorem Continues.refl (w : World) : Continues w w := fun _ record h =>
  ⟨record, h, rfl, fun _ => rfl⟩

theorem Continues.trans {w'' : World} (h : Continues w w') (h' : Continues w' w'') :
    Continues w w'' := by
  intro id record hget
  obtain ⟨record', hget', hmade, hsettled⟩ := h id record hget
  obtain ⟨record'', hget'', hmade', hsettled'⟩ := h' id record' hget'
  refine ⟨record'', hget'', hmade'.trans hmade, fun hstatus => ?_⟩
  have hsame := hsettled hstatus
  rw [hsettled' (hsame ▸ hstatus), hsame]

/-- What a call does to the store. -/
theorem reviews_step (c : Call) :
    ((reviewing host).step w c).2.reviews = w.reviews ∨
      (∃ record, Makes host w record ((reviewing host).step w c).2 ∧
        ∃ root taskText line, c = .runCodeEditReviewTask root taskText record.reviewId line) ∨
      ∃ id record status reason, w.reviews.get? id = some record ∧
        record.status = .pendingReview ∧ ((reviewing host).step w c).2.reviews =
          w.reviews.set record.reviewId { record with status := status, reason := reason } := by
  cases c with
  | runCodeEditReviewTask root taskText reviewId line =>
    rcases @runCodeEditReviewTask_cases host w root taskText reviewId line with
      ⟨record, hid, -, hmakes⟩ | ⟨-, hsame⟩
    · exact .inr (.inl ⟨record, hmakes, root, taskText, line, by rw [hid]⟩)
    · exact .inl (congrArg World.reviews hsame)
  | applyReview reviewId line failing =>
    rcases @applyReview_cases host w reviewId line failing with ⟨-, hsame⟩ |
      ⟨record, copy, text, h⟩
    · exact .inl hsame
    · obtain ⟨files, -, hafter⟩ := h.written
      have hset : ((reviewing host).step w (.applyReview reviewId line failing)).2.reviews =
          (World.settle { w with files := logged host.auditFile line files } record .applied
            record.reason).reviews := congrArg World.reviews hafter
      exact .inr (.inr ⟨reviewId, record, .applied, record.reason, h.stored, h.pending, hset⟩)
  | rejectReview reviewId reason line =>
    rcases @rejectReview_cases host w reviewId reason line with hsame |
      ⟨record, hstored, hstatus, reason', hset⟩
    · exact .inl hsame
    · exact .inr (.inr ⟨reviewId, record, .rejected, reason', hstored, hstatus, hset⟩)
  | edit files => exact .inl rfl

theorem continues_of_set (record' : ReviewRecord) {id : String}
    (hset : w'.reviews = w.reviews.set record'.reviewId record')
    (hget : w.reviews.get? id = some record) (hid : record'.reviewId = id)
    (hmade : record'.made = record.made) (hstatus : record.status = .pendingReview) :
    Continues w w' := by
  intro id' other hother
  by_cases hsame : id' = id
  · subst hsame
    obtain rfl := Option.some.inj (hget.symm.trans hother)
    refine ⟨record', ?_, hmade, fun hne => absurd hstatus hne⟩
    rw [hset, hid, Dict.get?_set, if_pos rfl]
  · refine ⟨other, ?_, rfl, fun _ => rfl⟩
    rw [hset, hid, Dict.get?_set, if_neg hsame]
    exact hother

theorem keyed_of_set {record : ReviewRecord} (h : Keyed w)
    (hset : w'.reviews = w.reviews.set record.reviewId record) : Keyed w' := by
  intro id other hget
  rw [hset, Dict.get?_set] at hget
  split at hget
  · rename_i hid
    cases hget
    exact hid.symm
  · exact h id other hget

theorem keyed_step (c : Call) (h : Keyed w) : Keyed ((reviewing host).step w c).2 := by
  rcases @reviews_step host w c with hsame | ⟨record, hmakes, -⟩ |
    ⟨id, record, status, reason, -, -, hset⟩
  · intro id record hget
    rw [hsame] at hget
    exact h id record hget
  · exact keyed_of_set h hmakes.stored
  · exact @keyed_of_set w _ { record with status := status, reason := reason } h hset

theorem continues_step (c : Call) (h : Keyed w) (hfresh : Fresh w c) :
    Continues w ((reviewing host).step w c).2 := by
  rcases @reviews_step host w c with hsame | ⟨record, hmakes, root, taskText, line, rfl⟩ |
    ⟨id, record, status, reason, hget, hstatus, hset⟩
  · intro id record hget
    exact ⟨record, hsame ▸ hget, rfl, fun _ => rfl⟩
  · intro id other hget
    have hnew : id ≠ record.reviewId := by
      rintro rfl
      exact absurd (hget.symm.trans hfresh) nofun
    refine ⟨other, ?_, rfl, fun _ => rfl⟩
    rw [hmakes.stored, Dict.get?_set, if_neg hnew]
    exact hget
  · exact continues_of_set { record with status := status, reason := reason } hset hget
      (h id record hget) rfl hstatus

theorem keyed_run (calls : List Call) (h : Keyed w) : Keyed ((reviewing host).run w calls) :=
  Machine.run_invariant (fun _ c hkeyed => keyed_step c hkeyed) calls h

theorem continues_run {calls : List Call} (h : Keyed w)
    (hfresh : (reviewing host).Guarded Fresh w calls) :
    Continues w ((reviewing host).run w calls) := by
  induction calls generalizing w with
  | nil => exact Continues.refl w
  | cons c calls ih =>
    obtain ⟨hc, hcalls⟩ := hfresh
    exact (continues_step c h hc).trans (ih (keyed_step c h) hcalls)

/-! ## Runs -/

/-- No file at these places changes in the step. -/
def LeavesFiles (host : Host) (places : List Names) (w : World) (c : Call) : Prop :=
  ∀ p ∈ places, ((reviewing host).step w c).2.files.get? p = w.files.get? p

theorem files_run {places : List Names} {calls : List Call}
    (h : (reviewing host).Guarded (LeavesFiles host places) w calls) (hp : p ∈ places) :
    ((reviewing host).run w calls).files.get? p = w.files.get? p := by
  induction calls generalizing w with
  | nil => rfl
  | cons c calls ih => exact (ih h.2).trans (h.1 p hp)

def Settles (reviewId : String) : Call → Prop
  | .applyReview id _ _ => id = reviewId
  | .rejectReview id _ _ => id = reviewId
  | _ => False

/-- What holds of the reviews in a state. -/
structure ReviewsLawful (host : Host) (w : World) : Prop where
  /-- A review that is applied changes its target and the audit log; the target gets the text of the
  copy. -/
  applied : ∀ reviewId line failing w', applyReview host w reviewId line failing = (.applied, w') →
    ∃ record copy text, WritesCopy host w reviewId line record copy text w'
  rejected : ∀ reviewId reason line p, p ≠ host.auditFile →
    (rejectReview host w reviewId reason line).2.files.get? p = w.files.get? p
  /-- If nothing changes the target and the copy from when the review is made to when it is
  applied, the target goes from the text of the diff to the text that the diff leads to. -/
  kept : ∀ root taskText reviewId line w₁,
    runCodeEditReviewTask host w root taskText reviewId line = (.pending reviewId, w₁) →
    ∃ record, record.reviewId = reviewId ∧ Makes host w record w₁ ∧
      ∀ later line' failing w₂, record.target ≠ record.sandboxPath →
        record.target ≠ host.auditFile → record.sandboxPath ≠ host.auditFile →
        (reviewing host).Guarded Fresh w₁ later →
        (reviewing host).Guarded (LeavesFiles host [record.target, record.sandboxPath]) w₁ later →
        applyReview host ((reviewing host).run w₁ later) reviewId line' failing = (.applied, w₂) →
          ((reviewing host).run w₁ later).files.get? record.target = some record.diff.original ∧
            w₂.files.get? record.target = some record.diff.modified
  /-- A review that was applied or rejected is not settled again, and changes nothing. -/
  closed : ∀ reviewId record, w.reviews.get? reviewId = some record →
    record.status ≠ .pendingReview → ∀ later c, (reviewing host).Guarded Fresh w later →
      Settles reviewId c → (reviewing host).step ((reviewing host).run w later) c =
        (.error ("review is not pending: " ++ record.status.text), (reviewing host).run w later)

/-! ## Every run -/

/-- The copy that is there is the one that is found. -/
theorem findSandboxFile_copy (h : w.files.get? record.sandboxPath = some text) :
    findSandboxFile w.files record = some record.sandboxPath := by
  have hpresent : w.files.present record.sandboxPath = true := by
    unfold FileMap.present
    rw [h]
    rfl
  exact List.find?_cons_of_pos hpresent

theorem closed_settles {c : Call} (hget : w.reviews.get? reviewId = some record)
    (hstatus : record.status ≠ .pendingReview) (hsettles : Settles reviewId c) :
    (reviewing host).step w c = (.error ("review is not pending: " ++ record.status.text), w) := by
  have hpending := pendingReview_settled hget hstatus
  cases c with
  | runCodeEditReviewTask root taskText id line => exact hsettles.elim
  | edit files => exact hsettles.elim
  | applyReview id line failing =>
    obtain rfl : id = reviewId := hsettles
    change applyReview host w id line failing = _
    unfold applyReview
    rw [hpending]
  | rejectReview id reason line =>
    obtain rfl : id = reviewId := hsettles
    change rejectReview host w id reason line = _
    unfold rejectReview
    rw [hpending]

theorem kept_applied {later : List Call} {w₁ w₂ : World} (hkeyed : Keyed w)
    (hmakes : Makes host w record w₁) (hne : record.target ≠ record.sandboxPath)
    (htarget : record.target ≠ host.auditFile) (hcopy : record.sandboxPath ≠ host.auditFile)
    (hfresh : (reviewing host).Guarded Fresh w₁ later)
    (hleaves : (reviewing host).Guarded (LeavesFiles host [record.target, record.sandboxPath]) w₁
      later)
    (happlied : applyReview host ((reviewing host).run w₁ later) record.reviewId line failing =
      (.applied, w₂)) :
    ((reviewing host).run w₁ later).files.get? record.target = some record.diff.original ∧
      w₂.files.get? record.target = some record.diff.modified := by
  have hstored : w₁.reviews.get? record.reviewId = some record := by
    rw [hmakes.stored, Dict.get?_set, if_pos rfl]
  obtain ⟨record', hget, hmade, -⟩ :=
    continues_run (keyed_of_set hkeyed hmakes.stored) hfresh _ _ hstored
  have htarget' : record'.made.target = record.made.target :=
    congrArg ReviewRecord.target hmade
  have hcopy' : record'.made.sandboxPath = record.made.sandboxPath :=
    congrArg ReviewRecord.sandboxPath hmade
  have hplaces : record'.target = record.target ∧ record'.sandboxPath = record.sandboxPath :=
    ⟨htarget', hcopy'⟩
  have horiginal : ((reviewing host).run w₁ later).files.get? record.target =
      some record.diff.original := by
    rw [files_run hleaves (by simp), hmakes.copied _ htarget, if_neg hne]
    exact hmakes.original
  have hmodified : ((reviewing host).run w₁ later).files.get? record.sandboxPath =
      some record.diff.modified := by
    rw [files_run hleaves (by simp), hmakes.copied _ hcopy, if_pos rfl]
  obtain ⟨applied, copy, text, hwrites⟩ := applyReview_applied happlied
  obtain rfl := Option.some.inj (hget.symm.trans hwrites.stored)
  have hfound := hwrites.found
  rw [findSandboxFile_copy (by rw [hplaces.2]; exact hmodified), hplaces.2] at hfound
  obtain rfl := Option.some.inj hfound
  have htext := Option.some.inj (hmodified.symm.trans hwrites.copied)
  refine ⟨horiginal, ?_⟩
  rw [hwrites.frame htarget, if_pos hplaces.1.symm, htext]

theorem reviewsLawful (host : Host) (files : FileMap) (calls : List Call) :
    ReviewsLawful host ((reviewing host).run ⟨files, .empty⟩ calls) where
  applied := fun _ _ _ _ happlied => applyReview_applied happlied
  rejected := fun _ reason line _ hp => rejectReview_frame reason line hp
  kept := by
    intro root taskText reviewId line w₁ hpending
    have hkeyed : Keyed ((reviewing host).run ⟨files, .empty⟩ calls) :=
      keyed_run calls fun id record hget => absurd hget nofun
    rcases @runCodeEditReviewTask_cases host _ root taskText reviewId line with
      ⟨record, hid, -, hmakes⟩ | ⟨hne, -⟩
    · rw [hpending] at hmakes
      refine ⟨record, hid, hmakes, ?_⟩
      intro later line' failing w₂ hne htarget hcopy hlater hleaves happlied
      rw [← hid] at happlied
      exact kept_applied hkeyed hmakes hne htarget hcopy hlater hleaves happlied
    · exact absurd (congrArg Prod.fst hpending) (hne reviewId)
  closed := by
    intro reviewId record hget hstatus later c hlater hsettles
    have hkeyed : Keyed ((reviewing host).run ⟨files, .empty⟩ calls) :=
      keyed_run calls fun id record hget => absurd hget nofun
    obtain ⟨record', hget', -, hsame⟩ := continues_run hkeyed hlater _ _ hget
    rw [hsame hstatus] at hget'
    exact closed_settles hget' hstatus hsettles

/-! ## Two reviews of one file -/

/-- The target goes from the text that the diff is computed from to the text that the diff leads to,
and no other file changes. -/
def WritesReviewed (w : World) (reviewId : String) (w' : World) : Prop :=
  ∃ record, w.reviews.get? reviewId = some record ∧
    w.files.get? record.target = some record.diff.original ∧
    w'.files.get? record.target = some record.diff.modified ∧
    ∀ p, p ≠ record.target → w'.files.get? p = w.files.get? p

/-- The target holds another text than the one that was reviewed. -/
theorem not_writesReviewed {target : Names} {original : String}
    (hstored : (w.reviews.get? reviewId).map (fun record => (record.target, record.diff.original)) =
      some (target, original)) (hfile : w.files.get? target = some text) (hne : text ≠ original) :
    ¬WritesReviewed w reviewId w' := by
  rintro ⟨record, hget, horiginal, -⟩
  rw [hget] at hstored
  obtain ⟨rfl, rfl⟩ := Prod.mk.inj (Option.some.inj hstored)
  rw [hfile] at horiginal
  exact hne (Option.some.inj horiginal)

def samplePath : Names := ["workspace", "a.py"]

def sampleIntent (old new : String) : CodeEditIntent where
  status := "ready"
  filePath := "workspace/a.py"
  oldText := old
  newText := new
  oldLine := old
  newLine := new

def firstTask : String := "In workspace/a.py replace 'x = 1' with 'x = 2'"

def secondTask : String := "In workspace/a.py replace 'y = 1' with 'y = 2'"

def sampleHost : Host where
  parseCodeEditIntent text :=
    if text = firstTask then sampleIntent "x = 1" "x = 2"
    else if text = secondTask then sampleIntent "y = 1" "y = 2"
    else { status := "blocked" }
  auditFile := ["workspace", "tasks", "unknown_task", "audit_log.jsonl"]

def sampleFiles : FileMap := (FileMap.empty.write samplePath "x = 1\ny = 1").toOption.getD .empty

def bothReviewed : World := (reviewing sampleHost).run ⟨sampleFiles, .empty⟩
  [.runCodeEditReviewTask [] firstTask "review-1" "made", .runCodeEditReviewTask [] secondTask
    "review-2" "made", .applyReview "review-1" "applied" none]

/-- The world after the second review is applied, too. -/
def bothApplied : World := (applyReview sampleHost bothReviewed "review-2" "applied" none).2

theorem bothApplied_facts :
    (bothReviewed.reviews.get? "review-2").map (fun record =>
        (record.target, record.diff.original)) = some (samplePath, "x = 1\ny = 1") ∧
      bothReviewed.files.get? samplePath = some "x = 2\ny = 1" ∧
      (applyReview sampleHost bothReviewed "review-2" "applied" none).1 = .applied ∧
      bothApplied.files.get? samplePath = some "x = 1\ny = 2" := by
  decide +kernel

/-- The second review is applied, and what the first one changed is undone. -/
theorem second_review_undoes_first :
    (applyReview sampleHost bothReviewed "review-2" "applied" none).1 = .applied ∧
      bothApplied.files.get? samplePath = some "x = 1\ny = 2" ∧
      ¬WritesReviewed bothReviewed "review-2" bothApplied := by
  obtain ⟨hstored, hfile, hanswer, hafter⟩ := bothApplied_facts
  exact ⟨hanswer, hafter, not_writesReviewed hstored hfile (by decide)⟩

end Reviews
end ZeroRuntime
