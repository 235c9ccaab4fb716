import ZeroRuntime.Transactions.History

/-!
# ZeroRuntime.Transactions.Lifecycle

The check of a transaction's lifecycle, against what the recorders let into the registry.

* `assertTransactionLifecycleValid`: the check; an `AssertionError` is `.raised` with its message.
* `Proven`: what holds of every stored transaction, as the recorders see to it.
* `Evident`: what the check asks for besides, and the recorders do not.
* `valid_iff_evidenced`: the check accepts every stored transaction, in every state of a run of
  calls by id, if and only if each call brings the evidence itself.
-/

namespace ZeroRuntime
namespace Transactions

open Lib

/-! ## The check -/

def stateIndex : TxState → ℕ
  | .proposed => 0
  | .preflight => 1
  | .approved | .blocked => 2
  | .applied => 3
  | .verified => 4
  | .committed | .rolledBack | .failed => 5
  | .audited => 6

/-- The history, pair by pair. -/
def checkHistory : List TxState → Except Err Unit
  | previous :: current :: rest =>
    if current ∉ allowedTransitions previous then
      .error (.raised ("invalid transaction transition: " ++ previous.text ++ "->" ++ current.text))
    else if stateIndex current < stateIndex previous then
      .error (.raised "transaction lifecycle moved backwards")
    else checkHistory (current :: rest)
  | _ => .ok ()

/-- `if wrong: raise AssertionError(message)` -/
def refuse (wrong : Prop) [Decidable wrong] (message : String) : Except Err Unit :=
  if wrong then .error (.raised message) else .ok ()

/-- The transaction is the one it says it was made from. -/
def selfMade (tx : RuntimeTransaction) : Prop :=
  tx.originalTransactionId ≠ "" ∧ tx.transactionId = tx.originalTransactionId

instance (tx : RuntimeTransaction) : Decidable (selfMade tx) :=
  inferInstanceAs (Decidable (_ ∧ _))

def assertTransactionLifecycleValid (stored : TxStore) (ref : TxRef) : Except Err Bool := do
  let tx ← getTransaction stored ref
  checkHistory tx.stateHistory
  refuse (tx.state ∈ [TxState.committed, .audited] ∧ .committed ∈ tx.stateHistory ∧
      (.verified ∉ tx.stateHistory ∨ ¬resultOk (some tx.verificationResult)))
    "committed transaction requires verified success"
  refuse (tx.state = .rolledBack ∧ tx.rollbackResult = [])
    "rolled_back transaction requires rollback evidence"
  refuse (tx.state = .failed ∧ tx.failureResult = []) "failed transaction requires reason"
  let classified := classifyRuntimeSurface (.str tx.surface)
  refuse (classified.anonymous ∨ ¬classified.requiresTransaction)
    "transaction surface must exist in runtime_surface_registry"
  refuse (classified.kind = .fileMutation ∧ tx.affectedFiles = [])
    "file mutation transaction requires affected_files"
  refuse (tx.replaySource ≠ "" ∧ selfMade tx)
    "replay-created transaction must differ from source transaction"
  refuse (tx.recoverySource ≠ "" ∧ selfMade tx)
    "recovery-created transaction must differ from source transaction"
  refuse (tx.repairSource ≠ "" ∧ selfMade tx)
    "repair-created transaction must differ from source transaction"
  refuse (tx.repairSource ≠ "" ∧ tx.repairLoopId = "")
    "repair-created transaction requires repair_loop_id"
  .ok true

/-! ## What the check asks for -/

/-- What the recorders see to. -/
structure Proven (tx : RuntimeTransaction) : Prop where
  tracked : Tracked tx
  committed : .committed ∈ tx.stateHistory →
    .verified ∈ tx.stateHistory ∧ resultOk (some tx.verificationResult) = true
  failed : tx.state = .failed → tx.failureResult ≠ []
  listed : (classifyRuntimeSurface (.str tx.surface)).anonymous = false
  mutation : (classifyRuntimeSurface (.str tx.surface)).requiresTransaction = true

/-- What the recorders leave to their callers. -/
structure Evident (tx : RuntimeTransaction) : Prop where
  rolledBack : tx.state = .rolledBack → tx.rollbackResult ≠ []
  files : (classifyRuntimeSurface (.str tx.surface)).kind = .fileMutation → tx.affectedFiles ≠ []
  origin : tx.replaySource ≠ "" ∨ tx.recoverySource ≠ "" ∨ tx.repairSource ≠ "" → ¬selfMade tx
  loop : tx.repairSource ≠ "" → tx.repairLoopId ≠ ""

theorem refuse_eq_ok {wrong : Prop} [Decidable wrong] {message : String} {u : Unit} :
    refuse wrong message = .ok u ↔ ¬wrong := by
  unfold refuse
  split
  · rename_i h
    exact ⟨(by intro h'; cases h'), fun h' => absurd h h'⟩
  · rename_i h
    exact ⟨fun _ => h, fun _ => rfl⟩

/-- No allowed step goes back. -/
theorem stateIndex_le {a b : TxState} (h : b ∈ allowedTransitions a) : stateIndex a ≤ stateIndex b := by
  revert h
  cases a <;> cases b <;> decide

theorem checkHistory_eq_ok {history : List TxState} {u : Unit} :
    checkHistory history = .ok u ↔ IsPath history := by
  unfold IsPath
  induction history with
  | nil => exact iff_of_true rfl List.isChain_nil
  | cons a rest ih =>
    cases rest with
    | nil => exact iff_of_true rfl (List.isChain_singleton a)
    | cons b rest =>
      rw [checkHistory, List.isChain_cons_cons, ← ih]
      by_cases hallowed : b ∈ allowedTransitions a
      · rw [if_neg (not_not.mpr hallowed), if_neg (Nat.not_lt.mpr (stateIndex_le hallowed))]
        exact (and_iff_right hallowed).symm
      · rw [if_pos hallowed]
        exact iff_of_false (by intro h; cases h) fun h => hallowed h.1

variable {tx : RuntimeTransaction}

theorem valid_iff {stored : TxStore} {ref : TxRef} (htx : getTransaction stored ref = .ok tx)
    (hproven : Proven tx) : assertTransactionLifecycleValid stored ref = .ok true ↔ Evident tx := by
  unfold assertTransactionLifecycleValid
  simp only [htx, bind_eq_ok, refuse_eq_ok, checkHistory_eq_ok, Except.ok.injEq, exists_eq_left',
    exists_const, and_true]
  constructor
  · rintro ⟨-, -, hrolled, -, -, hfiles, hreplay, hrecovery, hrepair, hloop⟩
    refine ⟨fun h h' => hrolled ⟨h, h'⟩, fun h h' => hfiles ⟨h, h'⟩, ?_, fun h h' => hloop ⟨h, h'⟩⟩
    rintro (h | h | h) hself
    · exact hreplay ⟨h, hself⟩
    · exact hrecovery ⟨h, hself⟩
    · exact hrepair ⟨h, hself⟩
  · intro h
    refine ⟨hproven.tracked.path, ?_, fun h' => h.rolledBack h'.1 h'.2,
      fun h' => hproven.failed h'.1 h'.2, ?_, fun h' => h.files h'.1 h'.2,
      fun h' => h.origin (.inl h'.1) h'.2, fun h' => h.origin (.inr (.inl h'.1)) h'.2,
      fun h' => h.origin (.inr (.inr h'.1)) h'.2, fun h' => h.loop h'.1 h'.2⟩
    · rintro ⟨-, hcommitted, hmissing⟩
      obtain ⟨hverified, hok⟩ := hproven.committed hcommitted
      rcases hmissing with hmissing | hmissing
      · exact hmissing hverified
      · exact hmissing hok
    · rintro (h' | h')
      · rw [hproven.listed] at h'
        cases h'
      · exact h' hproven.mutation

/-! ## What a recorder writes -/

/-- The fields that no recorder replaces, and the files, which only grow. -/
structure Carries (tx u : RuntimeTransaction) : Prop where
  transactionId : u.transactionId = tx.transactionId
  surface : u.surface = tx.surface
  replaySource : u.replaySource = tx.replaySource
  recoverySource : u.recoverySource = tx.recoverySource
  repairSource : u.repairSource = tx.repairSource
  repairLoopId : u.repairLoopId = tx.repairLoopId
  originalTransactionId : u.originalTransactionId = tx.originalTransactionId

variable {u : RuntimeTransaction}

theorem Carries.updates (h : Carries tx u) (updates : List Update) :
    Carries tx (updates.foldl Update.on u) := by
  induction updates generalizing u with
  | nil => exact h
  | cons update updates ih =>
    refine ih ?_
    obtain ⟨hid, hsurface, hreplay, hrecovery, hrepair, hloop, horiginal⟩ := h
    cases update <;> exact ⟨hid, hsurface, hreplay, hrecovery, hrepair, hloop, horiginal⟩

theorem carries_replaceTx (stored : TxStore) (tx : RuntimeTransaction) (asked : TxState)
    (updates : List Update) (now : ℕ) :
    Carries tx (replaceTx stored tx asked updates now).1 := by
  have h : Carries tx (updates.foldl Update.on tx) :=
    Carries.updates ⟨rfl, rfl, rfl, rfl, rfl, rfl, rfl⟩ updates
  exact ⟨h.transactionId, h.surface, h.replaySource, h.recoverySource, h.repairSource,
    h.repairLoopId, h.originalTransactionId⟩

theorem Carries.selfMade_iff (h : Carries tx u) : selfMade u ↔ selfMade tx := by
  unfold selfMade
  rw [h.transactionId, h.originalTransactionId]

/-- The transaction after a call. -/
def RecordOp.written (tx : RuntimeTransaction) (op : RecordOp) : RuntimeTransaction :=
  (op.updates tx).foldl Update.on tx

theorem fromKeys_ne_nil {xs : List String} (h : xs ≠ []) : fromKeys xs ≠ [] := by
  have hgrows : ∀ (ys seen : List String), seen ≠ [] →
      ys.foldl (fun seen x => if x ∈ seen then seen else seen ++ [x]) seen ≠ [] := by
    intro ys
    induction ys with
    | nil => exact fun _ hseen => hseen
    | cons y ys ih =>
      intro seen hseen
      refine ih _ ?_
      dsimp only
      split
      · exact hseen
      · exact List.append_ne_nil_of_right_ne_nil _ (List.cons_ne_nil y [])
  cases xs with
  | nil => exact absurd rfl h
  | cons x xs => exact hgrows xs [x] (List.cons_ne_nil x [])

variable {op : RecordOp}

theorem affectedFiles_written (h : tx.affectedFiles ≠ []) : (op.written tx).affectedFiles ≠ [] := by
  unfold RecordOp.written
  cases op with
  | apply result affectedFiles =>
    change (List.foldl Update.on tx (_ :: if normalizeTextTuple affectedFiles ≠ [] then _ else
      _)).affectedFiles ≠ []
    split
    · exact fromKeys_ne_nil (List.append_ne_nil_of_left_ne_nil h _)
    · exact h
  | verification result =>
    change (List.foldl Update.on tx (if resultOk result then _ else _)).affectedFiles ≠ []
    split <;> exact h
  | preflight result => exact h
  | approval result => exact h
  | commit result => exact h
  | rollback result => exact h
  | failure reason result => exact h
  | audit refs => exact h

theorem put_ne_nil (k : String) (x : Val) (kvs : Entries) : Val.put k x kvs ≠ [] := by
  cases kvs with
  | nil => exact List.cons_ne_nil _ _
  | cons e kvs =>
    rw [Val.put]
    split <;> exact List.cons_ne_nil _ _

theorem foldl_put_ne_nil {kvs acc : Entries} (h : acc ≠ []) :
    kvs.foldl (fun kvs e => Val.put e.1 e.2 kvs) acc ≠ [] := by
  induction kvs generalizing acc with
  | nil => exact h
  | cons e kvs ih => exact ih (put_ne_nil e.1 e.2 acc)

/-- A call that asks for the failed state gives the reason, or finds it there. -/
theorem failureResult_written (hfailed : tx.state = .failed → tx.failureResult ≠ [])
    (haccepted : op.Accepted tx) (hasked : op.asked tx = .failed) :
    (op.written tx).failureResult ≠ [] := by
  unfold RecordOp.written
  cases op with
  | verification result =>
    change (if resultOk result then TxState.verified else .failed) = .failed at hasked
    change (List.foldl Update.on tx (if resultOk result then _ else _)).failureResult ≠ []
    split at hasked
    · cases hasked
    · rename_i hbad
      rw [if_neg hbad]
      exact List.cons_ne_nil _ _
  | rollback result =>
    change (if tx.state = .failed then TxState.failed else .rolledBack) = .failed at hasked
    split at hasked
    · rename_i hstate
      exact hfailed hstate
    · cases hasked
  | failure reason result => exact foldl_put_ne_nil (List.cons_ne_nil _ _)
  | approval result =>
    change (if resultOk result then TxState.approved else .blocked) = .failed at hasked
    split at hasked <;> cases hasked
  | preflight result => cases hasked
  | apply result affectedFiles => cases hasked
  | commit result => cases hasked
  | audit refs => cases hasked

/-- A commit is followed by nothing but the audit. -/
theorem Tracked.after_commit (h : Tracked tx) (hcommitted : .committed ∈ tx.stateHistory) :
    tx.state = .committed ∨ tx.state = .audited := by
  obtain ⟨before, rest, hhistory⟩ := List.append_of_mem hcommitted
  have hpath := h.path
  have hlast := h.last
  rw [hhistory] at hpath hlast
  obtain ⟨-, hpath, -⟩ := List.isChain_append.mp hpath
  rw [List.getLast?_append, List.getLast?_cons, Option.some_or, Option.some.injEq] at hlast
  cases rest with
  | nil => exact .inl hlast.symm
  | cons a rest =>
    obtain ⟨ha, hpath⟩ := List.isChain_cons_cons.mp hpath
    rw [List.mem_singleton.mp ha] at hlast hpath
    cases rest with
    | nil => exact .inr hlast.symm
    | cons b rest => cases (List.isChain_cons_cons.mp hpath).1

theorem verificationResult_written (h : ∀ result, op ≠ .verification result) :
    (op.written tx).verificationResult = tx.verificationResult := by
  unfold RecordOp.written
  cases op with
  | verification result => exact absurd rfl (h result)
  | apply result affectedFiles =>
    change (List.foldl Update.on tx (_ :: if normalizeTextTuple affectedFiles ≠ [] then _ else
      _)).verificationResult = _
    split <;> rfl
  | preflight result => rfl
  | approval result => rfl
  | commit result => rfl
  | rollback result => rfl
  | failure reason result => rfl
  | audit refs => rfl

section Record

variable {stored : TxStore} {tx : RuntimeTransaction} {op : RecordOp} {now : ℕ}

theorem Proven.record (h : Proven tx) (haccepted : op.Accepted tx) (hsteps : Steps tx (op.asked tx)) :
    Proven (replaceTx stored tx (op.asked tx) (op.updates tx) now).1 := by
  have hwrites := @writes_replaceTx stored tx (op.asked tx) (op.updates tx) now
  have hcarries := carries_replaceTx stored tx (op.asked tx) (op.updates tx) now
  refine ⟨h.tracked.written hsteps hwrites, fun hcommitted => ?_, fun hfailed => ?_, ?_, ?_⟩
  · have hverification : (replaceTx stored tx (op.asked tx) (op.updates tx) now).1.verificationResult =
        (op.written tx).verificationResult := rfl
    rw [hwrites.history] at hcommitted ⊢
    rw [hverification]
    by_cases hbefore : .committed ∈ tx.stateHistory
    · -- what was committed before is not verified again
      have hother : ∀ result, op ≠ .verification result := by
        rintro result rfl
        have hallowed : (if resultOk result then TxState.verified else .failed) ∈
            allowedTransitions tx.state := haccepted
        rcases h.tracked.after_commit hbefore with hstate | hstate <;> rw [hstate] at hallowed <;>
          revert hallowed <;> split <;> decide
      obtain ⟨hverified, hok⟩ := h.committed hbefore
      rw [verificationResult_written hother]
      refine ⟨?_, hok⟩
      split
      · exact List.mem_append_left _ hverified
      · exact hverified
    · have hasked : op.asked tx = .committed := by
        split at hcommitted
        · rcases List.mem_append.mp hcommitted with hold | hnew
          · exact absurd hold hbefore
          · exact (List.mem_singleton.mp hnew).symm
        · exact absurd hcommitted hbefore
      have hcommit : ∃ result, op = .commit result := by
        cases op with
        | commit result => exact ⟨result, rfl⟩
        | approval result =>
          change (if resultOk result then TxState.approved else .blocked) = .committed at hasked
          split at hasked <;> cases hasked
        | verification result =>
          change (if resultOk result then TxState.verified else .failed) = .committed at hasked
          split at hasked <;> cases hasked
        | rollback result =>
          change (if tx.state = .failed then TxState.failed else .rolledBack) = .committed at hasked
          split at hasked <;> cases hasked
        | preflight result => cases hasked
        | apply result affectedFiles => cases hasked
        | failure reason result => cases hasked
        | audit refs => cases hasked
      obtain ⟨result, rfl⟩ := hcommit
      obtain ⟨hstate, hok⟩ := haccepted
      have hverified : .verified ∈ tx.stateHistory := by
        rw [← hstate]
        exact List.mem_of_getLast? h.tracked.last
      refine ⟨?_, hok⟩
      split
      · exact List.mem_append_left _ hverified
      · exact hverified
  · rw [hwrites.state] at hfailed
    exact failureResult_written h.failed haccepted hfailed
  · rw [hcarries.surface]
    exact h.listed
  · rw [hcarries.surface]
    exact h.mutation

/-- What a call has to bring, besides what is checked. -/
def RecordOp.Evidenced (tx : RuntimeTransaction) : RecordOp → Prop
  | rollback result => tx.state = .failed ∨ dictOf result ≠ []
  | _ => True

theorem rollback_of_asked (hasked : op.asked tx = .rolledBack) :
    ∃ result, op = .rollback result ∧ tx.state ≠ .failed := by
  cases op with
  | rollback result =>
    change (if tx.state = .failed then TxState.failed else .rolledBack) = .rolledBack at hasked
    split at hasked
    · cases hasked
    · rename_i hstate
      exact ⟨result, rfl, hstate⟩
  | approval result =>
    change (if resultOk result then TxState.approved else .blocked) = .rolledBack at hasked
    split at hasked <;> cases hasked
  | verification result =>
    change (if resultOk result then TxState.verified else .failed) = .rolledBack at hasked
    split at hasked <;> cases hasked
  | preflight result => cases hasked
  | apply result affectedFiles => cases hasked
  | commit result => cases hasked
  | failure reason result => cases hasked
  | audit refs => cases hasked

theorem Evident.record (h : Evident tx) :
    Evident (replaceTx stored tx (op.asked tx) (op.updates tx) now).1 ↔ op.Evidenced tx := by
  have hcarries := carries_replaceTx stored tx (op.asked tx) (op.updates tx) now
  have hstate : (replaceTx stored tx (op.asked tx) (op.updates tx) now).1.state = op.asked tx := rfl
  have hwritten : (replaceTx stored tx (op.asked tx) (op.updates tx) now).1.rollbackResult =
      (op.written tx).rollbackResult := rfl
  constructor
  · intro hu
    cases op with
    | rollback result =>
      by_cases hfailed : tx.state = .failed
      · exact .inl hfailed
      · refine .inr (hu.rolledBack ?_)
        rw [hstate]
        exact if_neg hfailed
    | _ => trivial
  · intro hevidenced
    refine ⟨fun hrolled => ?_, fun hkind => ?_, fun hsource => ?_, fun hsource => ?_⟩
    · rw [hstate] at hrolled
      obtain ⟨result, rfl, hfailed⟩ := rollback_of_asked hrolled
      exact hevidenced.resolve_left hfailed
    · rw [hcarries.surface] at hkind
      exact affectedFiles_written (h.files hkind)
    · rw [hcarries.replaySource, hcarries.recoverySource, hcarries.repairSource] at hsource
      rw [hcarries.selfMade_iff]
      exact h.origin hsource
    · rw [hcarries.repairSource] at hsource
      rw [hcarries.repairLoopId]
      exact h.loop hsource

end Record

/-! ## Creating -/

/-- `str(x or "")` -/
def fieldText (x : Val) : String := (x.orElse (.str "")).toText

/-- What the creation of the transaction `id` has to bring, besides what is checked. -/
structure CreateArgs.Evidenced (a : CreateArgs) (id : String) : Prop where
  files : (classifyRuntimeSurface a.surface).kind = .fileMutation →
    normalizeTextTuple a.affectedFiles ≠ []
  origin : fieldText a.replaySource ≠ "" ∨ fieldText a.recoverySource ≠ "" ∨
    fieldText a.repairSource ≠ "" → fieldText a.originalTransactionId ≠ "" →
      id ≠ fieldText a.originalTransactionId
  loop : fieldText a.repairSource ≠ "" → fieldText a.repairLoopId ≠ ""

section Digest

variable {digest : String → String}

/-- The fields of a new transaction that the check reads. -/
structure Created (a : CreateArgs) (tx : RuntimeTransaction) : Prop where
  surface : tx.surface = (classifyRuntimeSurface a.surface).name
  affectedFiles : tx.affectedFiles = normalizeTextTuple a.affectedFiles
  replaySource : tx.replaySource = fieldText a.replaySource
  recoverySource : tx.recoverySource = fieldText a.recoverySource
  repairSource : tx.repairSource = fieldText a.repairSource
  repairLoopId : tx.repairLoopId = fieldText a.repairLoopId
  originalTransactionId : tx.originalTransactionId = fieldText a.originalTransactionId

variable {tx : RuntimeTransaction}

variable {a : CreateArgs} {now : ℕ}

theorem createTransaction_created {stored stored' : TxStore}
    (h : createTransaction digest stored a now = .ok (tx, stored')) : Created a tx := by
  unfold createTransaction at h
  dsimp only at h
  split at h
  · cases h
  split at h
  · cases h
  split at h
  · cases h
  split at h
  · cases h
  · cases h
    exact ⟨rfl, rfl, rfl, rfl, rfl, rfl, rfl⟩

theorem proven_created {stored stored' : TxStore}
    (h : createTransaction digest stored a now = .ok (tx, stored')) : Proven tx := by
  obtain ⟨haccepted, -, hstate, hhistory, -⟩ := createTransaction_ok h
  have hcreated := createTransaction_created h
  refine ⟨tracked_created h, fun hcommitted => ?_, fun hfailed => ?_, ?_, ?_⟩
  · rw [hhistory] at hcommitted
    cases List.mem_singleton.mp hcommitted
  · rw [hstate] at hfailed
    cases hfailed
  · rw [hcreated.surface, classifyRuntimeSurface_name haccepted.listed]
    exact haccepted.listed
  · rw [hcreated.surface, classifyRuntimeSurface_name haccepted.listed]
    exact haccepted.mutation

theorem evident_created {stored stored' : TxStore}
    (h : createTransaction digest stored a now = .ok (tx, stored')) :
    Evident tx ↔ a.Evidenced (transactionId digest a.required (stored.entries.length + 1)) := by
  obtain ⟨haccepted, hid, hstate, -, -⟩ := createTransaction_ok h
  have hcreated := createTransaction_created h
  have hkind : classifyRuntimeSurface (.str tx.surface) = classifyRuntimeSurface a.surface := by
    rw [hcreated.surface, classifyRuntimeSurface_name haccepted.listed]
  rw [← hid]
  constructor
  · intro hevident
    refine ⟨fun hfile => ?_, fun hsource horiginal hself => ?_, fun hsource => ?_⟩
    · rw [← hcreated.affectedFiles]
      exact hevident.files (hkind ▸ hfile)
    · rw [← hcreated.replaySource, ← hcreated.recoverySource, ← hcreated.repairSource] at hsource
      rw [← hcreated.originalTransactionId] at horiginal hself
      exact hevident.origin hsource ⟨horiginal, hself⟩
    · rw [← hcreated.repairSource] at hsource
      rw [← hcreated.repairLoopId]
      exact hevident.loop hsource
  · intro hevidenced
    refine ⟨fun hrolled => ?_, fun hfile => ?_, fun hsource => ?_, fun hsource => ?_⟩
    · rw [hstate] at hrolled
      cases hrolled
    · rw [hkind] at hfile
      rw [hcreated.affectedFiles]
      exact hevidenced.files hfile
    · rw [hcreated.replaySource, hcreated.recoverySource, hcreated.repairSource] at hsource
      rintro ⟨horiginal, hself⟩
      rw [hcreated.originalTransactionId] at horiginal hself
      exact hevidenced.origin hsource horiginal hself
    · rw [hcreated.repairSource] at hsource
      rw [hcreated.repairLoopId]
      exact hevidenced.loop hsource

/-! ## Runs of calls by id -/

inductive IdCall where
  | create (a : CreateArgs) (now : ℕ)
  | record (id : Val) (op : RecordOp) (now : ℕ)

def IdCall.toCall : IdCall → TxCall
  | create a now => .create a now
  | record id op now => .record (.id id) op now

variable (digest) in
def registry : Machine World IdCall (Option (Except Err (RuntimeTransaction × TxStore))) where
  step w c := (txMachine digest).step w c.toCall

/-- The check accepts every stored transaction. -/
def AllValid (stored : TxStore) : Prop :=
  ∀ id tx, stored.get? id = some tx →
    assertTransactionLifecycleValid stored (.id (.str id)) = .ok true

variable (digest) in
/-- Each call brings the evidence that the check asks for later. -/
def Evidenced (w : World) : IdCall → Prop
  | .create a _ => a.Accepted →
    a.Evidenced (transactionId digest a.required (w.stored.entries.length + 1))
  | .record id op _ => ∀ tx, getTransaction w.stored (.id id) = .ok tx → op.Accepted tx →
    op.Evidenced tx

/-- What holds in every state of a run. -/
structure Sound (w : World) : Prop where
  ids : ∀ id tx, w.stored.get? id = some tx → tx.transactionId = id
  proven : ∀ id tx, w.stored.get? id = some tx → Proven tx

theorem sound_start : Sound World.start where
  ids _ _ h := by cases h
  proven _ _ h := by cases h

theorem Sound.allValid_iff {w : World} (h : Sound w) :
    AllValid w.stored ↔ ∀ id tx, w.stored.get? id = some tx → Evident tx := by
  refine forall_congr' fun id => forall_congr' fun tx => imp_congr_right fun htx => ?_
  have hid : ((Val.str id).orElse (.str "")).toText = id := by
    unfold Val.orElse
    split
    · rfl
    · rename_i hblank
      have hempty : id = "" := by simpa [Val.truthy] using hblank
      rw [hempty]
      rfl
  refine valid_iff ?_ (h.proven id tx htx)
  unfold getTransaction
  dsimp only
  rw [hid, htx]

/-- A call writes one transaction, whose evidence is the call's, or nothing. -/
theorem registry_step {w : World} (hw : Sound w) (c : IdCall) :
    (((registry digest).step w c).2 = w ∧ Evidenced digest w c) ∨
      ∃ u, ((registry digest).step w c).2.stored = w.stored.set u.transactionId u ∧ Proven u ∧
        ((∀ id tx, w.stored.get? id = some tx → Evident tx) →
          (Evident u ↔ Evidenced digest w c)) := by
  cases c with
  | create a now =>
    cases hanswer : createTransaction digest w.stored a now with
    | error err =>
      refine .inl ⟨@step_of_error digest w (.create a now) err (congrArg some hanswer), ?_⟩
      intro haccepted
      obtain ⟨r, hr⟩ := @createTransaction_isOk digest w.stored a now haccepted
      rw [hanswer] at hr
      cases hr
    | ok r =>
      obtain ⟨tx, stored⟩ := r
      obtain ⟨haccepted, -, -, -, hstored⟩ := createTransaction_ok hanswer
      have hstep := @step_of_ok digest w (.create a now) tx stored (congrArg some hanswer)
      refine .inr ⟨tx, ?_, proven_created hanswer, fun _ => ?_⟩
      · rw [← hstored]
        exact congrArg World.stored hstep
      · rw [evident_created hanswer]
        exact ⟨fun h _ => h, fun h => h haccepted⟩
  | record id op now =>
    cases hanswer : record w.stored (.id id) now op with
    | error err =>
      refine .inl ⟨@step_of_error digest w (.record (.id id) op now) err (congrArg some hanswer), ?_⟩
      intro tx htx haccepted
      obtain ⟨r, hr⟩ := @record_isOk w.stored (.id id) op now tx htx haccepted
      rw [hanswer] at hr
      cases hr
    | ok r =>
      have hstep := @step_of_ok digest w (.record (.id id) op now) r.1 r.2 (congrArg some hanswer)
      obtain ⟨tx, htx, haccepted, hsteps, hr⟩ := record_eq hanswer
      have hproven := hw.proven _ tx (getTransaction_id htx)
      refine .inr ⟨r.1, ?_, ?_, fun hevident => ?_⟩
      · have hstored : r.2 = w.stored.set r.1.transactionId r.1 := by
          rw [hr]
          rfl
        rw [← hstored]
        exact congrArg World.stored hstep
      · rw [hr]
        exact hproven.record haccepted hsteps
      · rw [hr, (hevident _ tx (getTransaction_id htx)).record]
        refine ⟨fun h tx' htx' _ => ?_, fun h => h tx htx haccepted⟩
        rw [htx] at htx'
        cases htx'
        exact h

theorem sound_step {w : World} {c : IdCall} (hw : Sound w) : Sound ((registry digest).step w c).2 := by
  rcases @registry_step digest w hw c with ⟨hsame, -⟩ | ⟨u, hstored, hproven, -⟩
  · rw [hsame]
    exact hw
  · refine ⟨fun id tx htx => ?_, fun id tx htx => ?_⟩
    · rw [hstored, Dict.get?_set] at htx
      split at htx
      · rename_i hid
        cases htx
        exact hid.symm
      · exact hw.ids id tx htx
    · rw [hstored, Dict.get?_set] at htx
      split at htx
      · cases htx
        exact hproven
      · exact hw.proven id tx htx

/-- As long as everything stored is accepted, it stays so exactly if the call brings its evidence. -/
theorem evidenced_iff_allValid {w : World} {c : IdCall} (hw : Sound w) (hvalid : AllValid w.stored) :
    Evidenced digest w c ↔ AllValid ((registry digest).step w c).2.stored := by
  rw [(sound_step hw).allValid_iff]
  have hevident := hw.allValid_iff.mp hvalid
  rcases @registry_step digest w hw c with ⟨hsame, hevidenced⟩ | ⟨u, hstored, -, hiff⟩
  · rw [hsame]
    exact iff_of_true hevidenced hevident
  · rw [← hiff hevident, hstored]
    constructor
    · intro hu id tx htx
      rw [Dict.get?_set] at htx
      split at htx
      · cases htx
        exact hu
      · exact hevident id tx htx
    · intro h
      exact h u.transactionId u (by rw [Dict.get?_set, if_pos rfl])

end Digest

/-- A file mutation is stored although no file is named. -/
def unnamedFiles : CreateArgs := { sampleArgs with affectedFiles := .none }

end Transactions
end ZeroRuntime
