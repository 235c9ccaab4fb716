import ZeroRuntime.Mutation.Executor

/-!
# ZeroRuntime.Mutation.Frame

What the operations on transaction directories leave as it is.

* `Frame txid T s₀ s`: between `s₀` and `s` nothing has changed but the files in `T` of the one
  transaction directory. Every stage before the commit keeps such a frame, however it ends.
* `writeJsonAtomic_triple`: an atomic write is done as a whole, or has touched the temporary file
  only.
* `Stable I txid`: what the writes to one transaction directory keep, every stage keeps.
-/

namespace ZeroRuntime
namespace Mutation

open Lib Workspace

namespace Workspace

variable {s : Workspace} {txid x : String} {p q : TxPath} {f : TxFile}

@[simp] theorem setFile_tree : (s.setFile txid p f).tree = s.tree := rfl

@[simp] theorem eraseFile_tree : (s.eraseFile txid p).tree = s.tree := rfl

theorem contains_modify {d : Dict String TxDir} {g : TxDir → TxDir} :
    (d.modify txid g).contains x = d.contains x := by
  unfold Dict.contains
  rw [Dict.get?_modify]
  split
  · rename_i h
    rw [h, Option.isSome_map]
  · rfl

@[simp] theorem contains_setFile :
    (s.setFile txid p f).store.contains x = s.store.contains x := contains_modify

@[simp] theorem contains_eraseFile :
    (s.eraseFile txid p).store.contains x = s.store.contains x := contains_modify

theorem file_setFile : (s.setFile txid p f).file x q =
    if x = txid ∧ q = p ∧ s.store.contains txid = true then some f else s.file x q := by
  unfold file setFile
  simp only [Dict.get?_modify, Dict.contains]
  by_cases hx : x = txid
  · subst hx
    simp only [if_true, true_and]
    cases hget : s.store.get? x with
    | none => simp
    | some d =>
      by_cases hq : q = p
      · simp [hq]
      · simp [hq]
  · simp [hx]

theorem file_eraseFile : (s.eraseFile txid p).file x q =
    if x = txid ∧ q = p then none else s.file x q := by
  unfold file eraseFile
  simp only [Dict.get?_modify]
  by_cases hx : x = txid
  · subst hx
    simp only [if_true, true_and]
    cases hget : s.store.get? x with
    | none => simp
    | some d =>
      by_cases hq : q = p
      · simp [hq]
      · simp [hq]
  · simp [hx]

/-- A file lies in a transaction directory that is there. -/
theorem contains_of_file (h : s.file txid p = some f) : s.store.contains txid = true := by
  unfold file at h
  unfold Dict.contains
  cases hget : s.store.get? txid with
  | none =>
    rw [hget] at h
    cases h
  | some d => rfl

theorem contains_of_hasRoom (h : s.hasRoom txid p = true) : s.store.contains txid = true := by
  unfold hasRoom at h
  simp only [Bool.and_eq_true] at h
  exact h.1.1

end Workspace

/-! ## Frames -/

/-- Only the files `T` of the transaction directory differ. -/
structure Frame (txid : String) (T : TxPath → Prop) (s₀ s : Workspace) : Prop where
  tree : s.tree = s₀.tree
  stores : ∀ x, s.store.contains x = s₀.store.contains x
  files : ∀ x p, x ≠ txid ∨ ¬ T p → s.file x p = s₀.file x p

namespace Frame

variable {txid : String} {T T' : TxPath → Prop} {s₀ s₁ s₂ : Workspace}

theorem refl (s : Workspace) : Frame txid T s s := ⟨rfl, fun _ => rfl, fun _ _ _ => rfl⟩

theorem mono (h : Frame txid T s₀ s₁) (hT : ∀ p, T p → T' p) : Frame txid T' s₀ s₁ where
  tree := h.tree
  stores := h.stores
  files x p hp := h.files x p (hp.imp_right fun hn ht => hn (hT p ht))

theorem setFile {p : TxPath} (f : TxFile) (h : Frame txid T s₀ s₁) (hp : T p) :
    Frame txid T s₀ (s₁.setFile txid p f) where
  tree := h.tree
  stores x := contains_setFile.trans (h.stores x)
  files x q hq := by
    rw [file_setFile, if_neg, h.files x q hq]
    rintro ⟨rfl, rfl, -⟩
    rcases hq with hq | hq
    · exact hq rfl
    · exact hq hp

theorem eraseFile {p : TxPath} (h : Frame txid T s₀ s₁) (hp : T p) :
    Frame txid T s₀ (s₁.eraseFile txid p) where
  tree := h.tree
  stores x := contains_eraseFile.trans (h.stores x)
  files x q hq := by
    rw [file_eraseFile, if_neg, h.files x q hq]
    rintro ⟨rfl, rfl⟩
    rcases hq with hq | hq
    · exact hq rfl
    · exact hq hp

end Frame

/-! ## What keeps a frame -/

section Keeps

variable {txid : String} {T : TxPath → Prop} {s₀ : Workspace} {name : TxName} {p : TxPath}

theorem createFile_keeps (hp : T p) : Keeps (Frame txid T s₀) (createFile txid p) := by
  refine Keeps.modify ?_
  intro s s' hs hf
  split at hf
  · cases hf
    exact hs.setFile _ hp
  · cases hf

theorem makeDir_keeps (hp : T ⟨name, false⟩) : Keeps (Frame txid T s₀) (makeDir txid name) := by
  refine Keeps.modify ?_
  intro s s' hs hf
  split at hf
  · cases hf
    exact hs.setFile _ hp
  · cases hf

theorem writeFile_keeps {f : TxFile} (hp : T p) :
    Keeps (Frame txid T s₀) (writeFile txid p f) := by
  refine Keeps.modify ?_
  intro s s' hs hf
  cases hf
  exact hs.setFile _ hp

theorem replaceTemporary_keeps (hp : ∀ b, T ⟨name, b⟩) :
    Keeps (Frame txid T s₀) (replaceTemporary txid name) := by
  refine Keeps.modify ?_
  intro s s' hs hf
  split at hf
  · cases hf
    exact (hs.eraseFile (hp true)).setFile _ (hp false)
  · cases hf

theorem writeJsonAtomic_keeps {v : Val} (hp : ∀ b, T ⟨name, b⟩) :
    Keeps (Frame txid T s₀) (writeJsonAtomic txid name v) := by
  refine (createFile_keeps (hp true)).bind fun _ => ?_
  refine (writeFile_keeps (hp true)).bind fun _ => ?_
  refine (Keeps.query _).bind fun _ => ?_
  exact replaceTemporary_keeps hp

theorem writeNew_keeps {b : Bytes} (hp : T ⟨name, false⟩) :
    Keeps (Frame txid T s₀) (writeNew txid name b) := by
  refine (createFile_keeps hp).bind fun _ => ?_
  refine (writeFile_keeps hp).bind fun _ => ?_
  exact Keeps.query _

theorem resolveInside_keeps {I : Workspace → Prop} {rel : Val} :
    Keeps I (resolveInside rel) := by
  unfold resolveInside
  split
  · exact Keeps.pure _
  · exact Keeps.query _

end Keeps

/-! ## Atomic writes -/

/-- The file and its temporary one. -/
def Of (name : TxName) (p : TxPath) : Prop := p.name = name

theorem of_self (name : TxName) (b : Bool) : Of name ⟨name, b⟩ := rfl

def IsTemporary (name : TxName) (p : TxPath) : Prop := p = ⟨name, true⟩

theorem IsTemporary.isOf {name : TxName} {p : TxPath} (h : IsTemporary name p) : Of name p := by
  cases h
  exact of_self name true

section Atomic

variable {plan : Plan} {txid : String} {name : TxName} {v : Val} {s₀ : Workspace}

theorem writeJsonAtomic_triple : Triple plan (fun s => s = s₀) (writeJsonAtomic txid name v)
    ⟨fun _ s => Frame txid (Of name) s₀ s ∧ s.file txid ⟨name, false⟩ = some (.json v) ∧
        s.file txid ⟨name, true⟩ = none,
      Frame txid (IsTemporary name) s₀, Frame txid (IsTemporary name) s₀⟩ := by
  have htemp : IsTemporary name ⟨name, true⟩ := rfl
  have hstart : ∀ s, s = s₀ → Frame txid (IsTemporary name) s₀ s := by
    rintro s rfl
    exact Frame.refl s
  -- the frame, with what the temporary file holds
  have hwrite : ∀ f, Triple plan
      (fun s => Frame txid (IsTemporary name) s₀ s ∧ s.store.contains txid = true)
      (writeFile txid ⟨name, true⟩ f)
      ⟨fun _ s => Frame txid (IsTemporary name) s₀ s ∧ s.file txid ⟨name, true⟩ = some f,
        Frame txid (IsTemporary name) s₀, Frame txid (IsTemporary name) s₀⟩ := by
    intro f
    refine Triple.modify (fun s hs => hs.1) (fun s hs => hs.1) ?_
    intro s s' hs hf
    cases hf
    refine ⟨hs.1.setFile f htemp, ?_⟩
    rw [file_setFile, if_pos ⟨rfl, rfl, hs.2⟩]
  refine Triple.bind (R := fun _ s =>
    Frame txid (IsTemporary name) s₀ s ∧ s.store.contains txid = true) ?_ fun _ => ?_
  · refine Triple.modify hstart hstart ?_
    intro s s' hs hf
    split at hf
    · rename_i hroom
      cases hf
      refine ⟨(hstart s hs).setFile _ htemp, ?_⟩
      rw [contains_setFile]
      exact contains_of_hasRoom hroom
    · cases hf
  refine Triple.bind (hwrite (.json v)) fun _ => ?_
  refine Triple.bind (R := fun _ s =>
    Frame txid (IsTemporary name) s₀ s ∧ s.file txid ⟨name, true⟩ = some (.json v)) ?_ fun _ => ?_
  · exact Triple.query (fun s hs => hs.1) (fun s hs => hs.1) fun s _ hs _ => hs
  · refine Triple.modify (fun s hs => hs.1) (fun s hs => hs.1) ?_
    rintro s s' ⟨hframe, hfile⟩ hf
    simp only [hfile, Except.ok.injEq] at hf
    subst hf
    have hframe' := hframe.mono fun p hp => hp.isOf
    have hcontains := contains_of_file hfile
    refine ⟨(hframe'.eraseFile (of_self name true)).setFile _ (of_self name false), ?_, ?_⟩
    · rw [file_setFile, if_pos ⟨rfl, rfl, by rw [contains_eraseFile]; exact hcontains⟩]
    · rw [file_setFile, if_neg (by simp), file_eraseFile, if_pos ⟨rfl, rfl⟩]

end Atomic

/-! ## Before the transaction -/

section Enter

variable {I : Workspace → Prop} {plan : Plan}

theorem bindWorkspaceRoot_keeps (D : Digest) (root : WorkspaceRoot) (handoff : Entries) :
    Keeps I (bindWorkspaceRoot D root handoff) := by
  refine (Keeps.query _).attempt.bind fun found => ?_
  cases found with
  | error e => exact (Keeps.pure _).bind fun _ => (Keeps.ofExcept _).bind fun _ => Keeps.pure _
  | ok u =>
    refine (Keeps.query _).attempt.bind fun entries => (Keeps.ofExcept _).bind fun _ => ?_
    exact (Keeps.pure _).bind fun _ => (Keeps.ofExcept _).bind fun _ => Keeps.pure _

theorem liveReasons_keeps (D : Digest) (o : Entries) (tp : Path) :
    Keeps I (liveReasons D o tp) := by
  have hfile : Keeps I (do
      if !(← has tp) then pure ["target_missing"]
      else if !(← isFile tp) then pure ["target_kind_invalid"]
      else do
        let found ← readText tp
        pure (if unpinned D o found then [] else ["precondition_mismatch"])) := by
    refine (Keeps.query _).bind fun _ => Keeps.ite (Keeps.pure _) ?_
    refine (Keeps.query _).bind fun _ => Keeps.ite (Keeps.pure _) ?_
    exact (Keeps.query _).bind fun _ => Keeps.pure _
  unfold liveReasons
  split
  · exact (Keeps.query _).bind fun _ => Keeps.pure _
  · exact (Keeps.query _).bind fun _ => Keeps.pure _
  · exact hfile
  · exact hfile
  · refine resolveInside_keeps.bind fun source => ?_
    cases source with
    | error rs => exact Keeps.pure _
    | ok sp =>
      refine (Keeps.query _).bind fun _ => Keeps.ite (Keeps.pure _) ?_
      exact (Keeps.query _).bind fun _ => Keeps.ite (Keeps.pure _) (Keeps.pure _)
  · exact Keeps.pure _

theorem inspectOperations_keeps (D : Digest) (ops : List Entries) :
    Keeps I (inspectOperations D ops) := by
  induction ops with
  | nil => exact Keeps.pure _
  | cons o os ih =>
    have hrest : ∀ rs : List String, Keeps I (do
        let rs ← (pure rs : Run (List String))
        let more ← inspectOperations D os
        pure (rs ++ more)) :=
      fun rs => (Keeps.pure _).bind fun _ => ih.bind fun _ => Keeps.pure _
    refine resolveInside_keeps.bind fun target => ?_
    cases target with
    | error rs => exact hrest rs
    | ok tp =>
      refine (liveReasons_keeps D o tp).attempt.bind fun r => ?_
      cases r with
      | ok rs => exact hrest rs
      | error e => exact hrest _

theorem inspectLivePreconditions_keeps (D : Digest) (ops : List Entries) :
    Keeps I (inspectLivePreconditions D ops) :=
  (inspectOperations_keeps D ops).bind fun _ => Keeps.pure _

/-- Entering the pipeline only makes the transaction. `K` is what the store's answer tells. -/
theorem enterPipeline_triple {K : String → StoreArtifact → Workspace → Prop} (D : Digest)
    (root : WorkspaceRoot) (handoff : Entries)
    (hstore : ∀ txid workspaceId operationIds, Triple plan I
      (createTransactionStore txid workspaceId (Val.getIn "handoff_id" handoff) operationIds)
      ⟨fun a s => I s ∧ K txid a s, I, I⟩) :
    Triple plan I (enterPipeline D root handoff)
      ⟨fun r s => I s ∧ ∀ e, r = .entered e → K e.admission.transactionId e.store s ∧
          ∃ binding, admitWorkspaceMutationExecutor D binding handoff = .ok e.admission,
        I, I⟩ := by
  refine Triple.bind (bindWorkspaceRoot_keeps D root handoff plan) fun binding => ?_
  refine Triple.bind (R := fun a s => I s ∧
    admitWorkspaceMutationExecutor D binding handoff = .ok a) ?_ fun admission => ?_
  · exact Triple.ofExcept (fun a ha s hs => ⟨hs, ha⟩) fun s hs => hs
  refine Triple.intro fun s₀ hs₀ => ?_
  have hstart : ∀ s, s = s₀ → I s := by
    rintro s rfl
    exact hs₀.1
  refine Triple.conseq ?_ hstart (fun _ _ h => h) (fun _ h => h) (fun _ h => h)
  refine Triple.bind (Keeps.ofExcept _ plan) fun ops => ?_
  split
  · refine Triple.bind (inspectLivePreconditions_keeps D ops plan) fun pre => ?_
    split
    · refine Triple.bind (hstore _ _ _) fun store => Triple.pure fun s hs => ⟨hs.1, ?_⟩
      intro e he
      split at he
      · cases he
      · cases he
        exact ⟨hs.2, binding, hs₀.2⟩
    · exact Triple.pure fun s hs => ⟨hs, fun e he => by cases he⟩
  · exact Triple.pure fun s hs => ⟨hs, fun e he => by cases he⟩

end Enter

/-! ## Stages -/

/-- The writes to the transaction directory keep `I`, but for new token records. -/
structure Stable (I : Workspace → Prop) (txid : String) : Prop where
  manifest : ∀ state, Keeps I (transitionState txid state)
  json : ∀ name v, name ≠ .manifest → Keeps I (writeJsonAtomic txid name v)
  bytes : ∀ name b, name ≠ .manifest → Keeps I (writeNew txid name b)

/-- The operations on the tree keep `I` as well. -/
structure StableTree (I : Workspace → Prop) (txid : String) : Prop extends Stable I txid where
  tree : ∀ f, Keeps I (onTree f)
  place : ∀ i tp, Keeps I (placeStaged txid i tp)

namespace Stable

variable {I : Workspace → Prop} {txid : String} (h : Stable I txid)

include h

theorem appendJournal (D : Digest) (event : Entries) : Keeps I (appendJournal D txid event) :=
  (Keeps.query _).bind fun _ => h.json _ _ (by decide)

theorem writeBackup (i : ℕ) (t : String) : Keeps I (writeBackup txid i t) :=
  (h.bytes _ _ (by simp)).bind fun _ => (Keeps.query _).bind fun _ => Keeps.pure _

theorem backupText (i : ℕ) (t : String) (total : ℕ) : Keeps I (backupText txid i t total) := by
  refine Keeps.ite (Keeps.pure _) ?_
  refine (h.writeBackup i t).attempt.bind fun r => ?_
  cases r with
  | ok u => exact Keeps.pure _
  | error e => exact Keeps.pure _

omit h in
theorem lookAt (kind : OpKind) (src : Path) : Keeps I (lookAt kind src) := by
  refine (Keeps.query _).bind fun _ => Keeps.ite (Keeps.pure _) ?_
  refine (Keeps.query _).bind fun _ => Keeps.ite ?_ ?_
  · exact (Keeps.query _).bind fun _ => Keeps.pure _
  · exact (Keeps.query _).bind fun _ => Keeps.ite (Keeps.pure _) (Keeps.pure _)

theorem backupAt (kind : OpKind) (i : ℕ) (rel : Val) (total : ℕ) :
    Keeps I (backupAt txid kind i rel total) := by
  refine resolveInside_keeps.bind fun r => ?_
  cases r with
  | error rs => exact Keeps.pure _
  | ok src =>
    refine (lookAt kind src).attempt.bind fun found => ?_
    cases found with
    | error e => exact Keeps.pure _
    | ok found =>
      cases found with
      | text t => exact h.backupText i t total
      | missing => exact Keeps.pure _
      | directory => exact Keeps.pure _
      | wrongKind => exact Keeps.pure _

theorem captureBackup (i : ℕ) (o : Entries) (total : ℕ) :
    Keeps I (captureBackup txid i o total) := by
  unfold Mutation.captureBackup
  split
  · exact h.backupAt _ _ _ _
  · exact h.backupAt _ _ _ _
  · exact h.backupAt _ _ _ _
  · exact Keeps.pure _

theorem captureEach (i total : ℕ) (ops : List Entries) :
    Keeps I (captureEach txid i total ops) := by
  induction ops generalizing i total with
  | nil => exact Keeps.pure _
  | cons o os ih =>
    exact (h.captureBackup i o total).bind fun one => (ih (i + 1) one.2).bind fun _ => Keeps.pure _

theorem writeStaged (D : Digest) (i : ℕ) (c : String) : Keeps I (writeStaged D txid i c) := by
  refine (h.bytes _ _ (by simp)).bind fun _ => (Keeps.query _).bind fun b => ?_
  cases b with
  | text t => exact Keeps.pure _
  | binary bs => exact Keeps.raise _

theorem stageText (D : Digest) (i : ℕ) (o : Entries) : Keeps I (stageText D txid i o) := by
  unfold Mutation.stageText
  split
  · refine Keeps.ite (Keeps.pure _) ?_
    refine (h.writeStaged D i _).attempt.bind fun r => ?_
    cases r with
    | ok fp => exact Keeps.pure _
    | error e => exact Keeps.pure _
  · exact Keeps.pure _

theorem stageIntent (D : Digest) (i : ℕ) (o : Entries) : Keeps I (stageIntent D txid i o) := by
  refine (h.json _ _ (by simp)).attempt.bind fun r => ?_
  cases r with
  | ok u => exact Keeps.pure _
  | error e => exact Keeps.pure _

theorem stageOne (D : Digest) (i : ℕ) (o : Entries) : Keeps I (stageOne D txid i o) := by
  unfold Mutation.stageOne
  split
  · exact h.stageText D i o
  · exact h.stageText D i o
  · exact h.stageIntent D i o

theorem stageEach (D : Digest) (i : ℕ) (ops : List Entries) : Keeps I (stageEach D txid i ops) := by
  induction ops generalizing i with
  | nil => exact Keeps.pure _
  | cons o os ih =>
    exact (h.stageOne D i o).bind fun one => (ih (i + 1)).bind fun _ => Keeps.pure _

theorem stageMutations (D : Digest) (ops : List Entries) :
    Keeps I (stageMutations D txid ops) := by
  refine (h.stageEach D 0 ops).bind fun r => Keeps.ite ?_ (Keeps.pure _)
  exact (h.manifest _).bind fun _ => Keeps.pure _

theorem captureBackups (store : StoreArtifact) (ops : List Entries)
    (hid : store.transactionId = txid) : Keeps I (captureBackups store ops) := by
  subst hid
  refine (h.captureEach 0 0 ops).bind fun r => Keeps.ite ?_ (Keeps.pure _)
  exact (h.manifest _).bind fun _ => Keeps.pure _

omit h in
theorem postReasons (D : Digest) (o : Entries) (tp : Option Path) :
    Keeps I (postReasons D o tp) := by
  have hpath : ∀ {α : Type} (f : Path → Run α), (∀ p, Keeps I (f p)) → Keeps I (onPath f tp) := by
    intro α f hf
    cases tp with
    | none => exact Keeps.raise _
    | some p => exact hf p
  have hfile : Keeps I (onPath isFile tp) := hpath _ fun _ => Keeps.query _
  have hdir : Keeps I (onPath isDir tp) := hpath _ fun _ => Keeps.query _
  have hhas : Keeps I (onPath has tp) := hpath _ fun _ => Keeps.query _
  have hread : Keeps I (onPath readText tp) := hpath _ fun _ => Keeps.query _
  have hcontent : Keeps I (do
      if !(← onPath isFile tp) then pure ["content_fingerprint_mismatch"]
      else if (expectedAfter o).truthy then do
        let t ← onPath readText tp
        pure (if expectsContent D o t then [] else ["content_fingerprint_mismatch"])
      else pure []) := by
    refine hfile.bind fun b => Keeps.ite (Keeps.pure _) (Keeps.ite ?_ (Keeps.pure _))
    exact hread.bind fun _ => Keeps.pure _
  unfold Mutation.postReasons
  split
  · exact hcontent
  · exact hcontent
  · exact hhas.bind fun _ => Keeps.pure _
  · exact hdir.bind fun _ => Keeps.pure _
  · refine resolveInside_keeps.bind fun source => ?_
    refine Keeps.bind ?_ fun b => Keeps.ite (Keeps.pure _) (hhas.bind fun _ => Keeps.pure _)
    cases source with
    | error rs => exact Keeps.raise _
    | ok sp => exact (Keeps.query _ : Keeps I (has sp))
  · exact Keeps.pure _

omit h in
theorem verifyEach (D : Digest) (ops : List Entries) : Keeps I (verifyEach D ops) := by
  induction ops with
  | nil => exact Keeps.pure _
  | cons o os ih =>
    refine resolveInside_keeps.bind fun target => ?_
    refine (postReasons D o _).attempt.bind fun r => ?_
    cases r with
    | ok rs => exact ih.bind fun _ => Keeps.pure _
    | error e => exact ih.bind fun _ => Keeps.pure _

theorem verifyPostCommit (D : Digest) (ops : List Entries) (commit : CommitArtifact) :
    Keeps I (verifyPostCommit D txid ops commit) := by
  refine (verifyEach D ops).bind fun found => (Keeps.query _).bind fun marked => ?_
  exact Keeps.ite ((h.manifest _).bind fun _ => Keeps.pure _) (Keeps.pure _)

theorem verifyRecovery (rollback : RollbackArtifact) :
    Keeps I (verifyRecovery txid rollback) :=
  Keeps.ite ((h.manifest _).bind fun _ => Keeps.pure _) (Keeps.pure _)

end Stable

namespace StableTree

variable {I : Workspace → Prop} {txid : String} (h : StableTree I txid)

include h

theorem commitOperation (D : Digest) (i : ℕ) (o : Entries) (tp : Path) :
    Keeps I (commitOperation D txid i o tp) := by
  have hpin : Keeps I (matchesPin D o tp) :=
    Keeps.ite ((Keeps.query _).bind fun _ => Keeps.pure _) (Keeps.pure _)
  unfold Mutation.commitOperation
  split
  · refine (Keeps.query _).bind fun b => Keeps.ite (Keeps.pure _) ?_
    exact (h.place i tp).bind fun _ => Keeps.pure _
  · refine (Keeps.query _).bind fun b => Keeps.ite (Keeps.pure _) ?_
    refine hpin.bind fun b => Keeps.ite (Keeps.pure _) ?_
    exact (h.place i tp).bind fun _ => Keeps.pure _
  · refine (Keeps.query _).bind fun b => Keeps.ite (Keeps.pure _) ?_
    refine hpin.bind fun b => Keeps.ite (Keeps.pure _) ?_
    exact (h.tree _).bind fun _ => Keeps.pure _
  · refine (Keeps.query _).bind fun b => Keeps.ite (Keeps.pure _) ?_
    exact (h.tree _).bind fun _ => Keeps.pure _
  · refine resolveInside_keeps.bind fun source => ?_
    cases source with
    | error rs => exact Keeps.pure _
    | ok sp =>
      refine (Keeps.query _).bind fun b => Keeps.ite (Keeps.pure _) ?_
      refine (Keeps.query _).bind fun b => Keeps.ite (Keeps.pure _) ?_
      exact (h.tree _).bind fun _ => Keeps.pure _
  · exact Keeps.pure _

theorem commitOne (D : Digest) (i : ℕ) (o : Entries) : Keeps I (commitOne D txid i o) := by
  refine resolveInside_keeps.bind fun target => ?_
  refine (h.appendJournal D _).bind fun _ => ?_
  have hop : Keeps I (onPath (Mutation.commitOperation D txid i o) (pathOf target)) := by
    cases target with
    | error rs => exact Keeps.raise _
    | ok tp => exact h.commitOperation D i o tp
  refine hop.attempt.bind fun r => ?_
  split
  · exact Keeps.pure _
  · exact Keeps.pure _
  · refine (h.appendJournal D _).attempt.bind fun r => ?_
    cases r with
    | ok u => exact Keeps.pure _
    | error e => exact Keeps.pure _

theorem commitEach (D : Digest) (i : ℕ) (ops : List Entries) :
    Keeps I (commitEach D txid i ops) := by
  induction ops generalizing i with
  | nil => exact Keeps.pure _
  | cons o os ih =>
    refine (h.commitOne D i o).bind fun one => Keeps.ite ?_ (Keeps.pure _)
    exact (ih (i + 1)).bind fun _ => Keeps.pure _

theorem atomicCommit (D : Digest) (ops : List Entries) (gate : Gate) :
    Keeps I (atomicCommit D txid ops gate) := by
  refine Keeps.ite (Keeps.pure _) ?_
  refine (h.manifest _).bind fun _ => (h.commitEach D 0 ops).bind fun r => Keeps.ite ?_ ?_
  · exact (h.manifest _).bind fun _ => (h.json _ _ (by decide)).bind fun _ => Keeps.pure _
  · exact Keeps.pure _

theorem undoOperation (i : ℕ) (o : Entries) (tp : Option Path) :
    Keeps I (undoOperation txid i o tp) := by
  have hpath : ∀ {α : Type} (f : Path → Run α) (p : Option Path), (∀ p, Keeps I (f p)) →
      Keeps I (onPath f p) := by
    intro α f p hf
    cases p with
    | none => exact Keeps.raise _
    | some p => exact hf p
  have hhas : ∀ p, Keeps I (onPath has p) := fun p => hpath _ p fun _ => Keeps.query _
  have hrestore : Keeps I (restoreBackup txid i tp) := by
    refine (Keeps.query _).bind fun b => ?_
    refine (hpath _ tp fun _ => h.tree _).bind fun _ => ?_
    exact (hpath _ tp fun _ => h.tree _).bind fun _ => Keeps.query _
  unfold Mutation.undoOperation
  split
  · refine (hhas tp).bind fun b => Keeps.ite ?_ (Keeps.pure _)
    refine (hpath _ tp fun _ => Keeps.query _).bind fun b => Keeps.ite ?_ (Keeps.pure _)
    exact (hpath _ tp fun _ => h.tree _).bind fun _ => Keeps.pure _
  · exact (hpath _ tp fun _ => h.tree _).bind fun _ => Keeps.pure _
  · exact hrestore.bind fun _ => Keeps.pure _
  · exact hrestore.bind fun _ => Keeps.pure _
  · refine resolveInside_keeps.bind fun source => ?_
    refine (hhas _).bind fun b => Keeps.ite (Keeps.pure _) ?_
    refine (hhas tp).bind fun b => Keeps.ite (Keeps.pure _) ?_
    refine (hpath _ _ fun sp => hpath _ tp fun _ => h.tree _).bind fun _ => Keeps.pure _
  · exact Keeps.pure _

theorem rollbackOne (D : Digest) (ops : List Entries) (o : Entries) :
    Keeps I (rollbackOne D txid ops o) := by
  refine resolveInside_keeps.bind fun target => (h.appendJournal D _).bind fun _ => ?_
  refine (h.undoOperation _ o _).attempt.bind fun r => ?_
  split
  · exact Keeps.pure _
  · exact Keeps.pure _
  · refine (h.appendJournal D _).attempt.bind fun r => ?_
    cases r with
    | ok u => exact Keeps.pure _
    | error e => exact Keeps.pure _

theorem rollbackEach (D : Digest) (ops os : List Entries) :
    Keeps I (rollbackEach D txid ops os) := by
  induction os with
  | nil => exact Keeps.pure _
  | cons o os ih =>
    refine (h.rollbackOne D ops o).bind fun one => Keeps.ite ?_ (Keeps.pure _)
    exact ih.bind fun _ => Keeps.pure _

theorem rollbackTransaction (D : Digest) (ops : List Entries) (commit : CommitArtifact) :
    Keeps I (rollbackTransaction D txid ops commit) := by
  refine Keeps.ite (Keeps.pure _) ?_
  refine (h.manifest _).bind fun _ => (Keeps.ofExcept _).bind fun selected => ?_
  refine (h.rollbackEach D ops _).bind fun r => Keeps.ite ?_ ?_
  · exact (h.manifest _).bind fun _ => (h.json _ _ (by decide)).bind fun _ => Keeps.pure _
  · exact (h.manifest _).bind fun _ => Keeps.pure _

theorem settleCommit (D : Digest) (ops : List Entries) (commit : CommitArtifact) :
    Keeps I (settleCommit D txid ops commit) := by
  have hback : ∀ post, Keeps I (if commit.status ≠ .committed ∨ post.status ≠ .verified then do
      let rollback ← Mutation.rollbackTransaction D txid ops commit
      let recovery ← Mutation.verifyRecovery txid rollback
      pure (⟨post, rollback, recovery⟩ : Settled)
    else pure ⟨post, ⟨.notRequired, [], []⟩, ⟨.verified, false, []⟩⟩) := by
    intro post
    refine Keeps.ite ?_ (Keeps.pure _)
    refine (h.rollbackTransaction D ops commit).bind fun rollback => ?_
    exact (h.verifyRecovery rollback).bind fun _ => Keeps.pure _
  refine Keeps.ite ?_ ?_
  · exact (h.verifyPostCommit D ops commit).bind fun post => hback post
  · exact (Keeps.pure _).bind fun post => hback post

end StableTree

end Mutation
end ZeroRuntime
