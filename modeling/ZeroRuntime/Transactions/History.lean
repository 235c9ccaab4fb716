import Mathlib.Data.List.Chain
import ZeroRuntime.Lib.Machine
import ZeroRuntime.Transactions.Registry

/-!
# ZeroRuntime.Transactions.History

The histories of the stored transactions, as calls come in from callers that hold transactions of
different ages.

* `Lawful`: a call lets the stored histories grow, keeps them on the allowed paths, leaves a
  transaction that has come to an end at its end, and creates no id twice.
* `Careful`: what a call must be like. A transaction that is moved on is given as it is stored, or
  as it was before the very step that the call asks for.
* `lawful_iff_careful`: the two are the same in runs.
-/

namespace ZeroRuntime
namespace Transactions

open Lib

/-! ## Runs -/

/-- What a caller gives to a call: an id, or a transaction that an earlier call answered. -/
inductive Handle where
  | id (value : Val)
  | earlier (n : ℕ)

inductive TxCall where
  | create (a : CreateArgs) (now : ℕ)
  | record (handle : Handle) (op : RecordOp) (now : ℕ)

structure World where
  stored : TxStore
  answered : List RuntimeTransaction

def World.start : World := ⟨Dict.empty, []⟩

def World.ref (w : World) : Handle → Option TxRef
  | .id value => some (.id value)
  | .earlier n => (w.answered[n]?).map .object

section Digest

variable (digest : String → String)

/-- The answer of a call, if its caller has what it gives. -/
def TxCall.answer (w : World) : TxCall → Option (Except Err (RuntimeTransaction × TxStore))
  | .create a now => some (createTransaction digest w.stored a now)
  | .record handle op now => (w.ref handle).map fun ref => Transactions.record w.stored ref now op

def World.after (w : World) : Option (Except Err (RuntimeTransaction × TxStore)) → World
  | some (.ok (tx, stored)) => ⟨stored, w.answered ++ [tx]⟩
  | _ => w

def txMachine : Machine World TxCall (Option (Except Err (RuntimeTransaction × TxStore))) where
  step w c := (c.answer digest w, w.after (c.answer digest w))

/-! ## The law -/

/-- A path of the allowed transitions. -/
def IsPath (history : List TxState) : Prop :=
  history.IsChain fun a b => b ∈ allowedTransitions a

/-- The states after which there is only the audit. -/
def ended : List TxState := [.committed, .rolledBack, .failed, .blocked]

structure Lawful (w : World) (c : TxCall) : Prop where
  grows : ∀ id tx, w.stored.get? id = some tx →
    ∃ tx', ((txMachine digest).step w c).2.stored.get? id = some tx' ∧
      tx.stateHistory <+: tx'.stateHistory
  path : ∀ id tx, ((txMachine digest).step w c).2.stored.get? id = some tx → IsPath tx.stateHistory
  ended : ∀ id tx tx', w.stored.get? id = some tx →
    ((txMachine digest).step w c).2.stored.get? id = some tx' → tx.state ∈ ended →
      tx'.state = tx.state ∨ tx'.state = .audited
  created : ∀ a now tx stored, c = .create a now →
    createTransaction digest w.stored a now = .ok (tx, stored) →
      w.stored.get? tx.transactionId = none

/-! ## What a call must be like -/

/-- The checks of `create_transaction`. -/
structure CreateArgs.Accepted (a : CreateArgs) : Prop where
  listed : (classifyRuntimeSurface a.surface).anonymous = false
  mutation : (classifyRuntimeSurface a.surface).requiresTransaction = true
  named : ((a.required.filter fun e => e.2.text = "").map Prod.fst) = []
  evidence : (classifyRuntimeSurface a.surface).name = "rollback_restore" →
    (a.parentTransactionId.orElse a.affectedFiles).truthy = true

def RecordOp.asked (tx : RuntimeTransaction) : RecordOp → TxState
  | preflight _ => .preflight
  | approval result => if resultOk result then .approved else .blocked
  | apply _ _ => .applied
  | verification result => if resultOk result then .verified else .failed
  | commit _ => .committed
  | rollback _ => if tx.state = .failed then .failed else .rolledBack
  | failure _ _ => .failed
  | audit _ => .audited

/-- The checks of the `record_*` operations. -/
def RecordOp.Accepted (tx : RuntimeTransaction) : RecordOp → Prop
  | commit _ => tx.state = .verified ∧ resultOk (some tx.verificationResult) = true
  | rollback result =>
    (dictOf result ≠ [] ∨ tx.rollbackResult ≠ [] ∨ tx.applyResult ≠ [] ∨
      tx.parentTransactionId ≠ "") ∧ tx.state ∈ [TxState.applied, .verified, .failed]
  | failure reason _ => reason.text ≠ "" ∧ .failed ∈ allowedTransitions tx.state
  | op => op.asked tx ∈ allowedTransitions tx.state

/-- The transaction is as it is stored, or it is stored one step on, at the state asked for. -/
def Current (stored : TxStore) (tx : RuntimeTransaction) (asked : TxState) : Prop :=
  ∀ s, stored.get? tx.transactionId = some s →
    s.stateHistory = tx.stateHistory ∨
      asked ≠ tx.state ∧ s.stateHistory = tx.stateHistory ++ [asked]

def Careful (w : World) : TxCall → Prop
  | .create a _ => a.Accepted →
    w.stored.get? (transactionId digest a.required (w.stored.entries.length + 1)) = none
  | .record (.id _) _ _ => True
  | .record (.earlier n) op _ => ∀ tx, w.answered[n]? = some tx → op.Accepted tx →
    Current w.stored tx (op.asked tx)

end Digest

/-! ## One call -/

theorem history_updates (updates : List Update) (tx : RuntimeTransaction) :
    (updates.foldl Update.on tx).transactionId = tx.transactionId := by
  induction updates generalizing tx with
  | nil => rfl
  | cons u updates ih =>
    rw [List.foldl_cons, ih]
    cases u <;> rfl

/-- What a `record_*` operation writes. -/
structure Writes (stored : TxStore) (tx : RuntimeTransaction) (asked : TxState)
    (u : RuntimeTransaction) (stored' : TxStore) : Prop where
  id : u.transactionId = tx.transactionId
  state : u.state = asked
  history : u.stateHistory = if asked ≠ tx.state then tx.stateHistory ++ [asked] else tx.stateHistory
  stored : stored' = stored.set u.transactionId u

theorem writes_replaceTx {stored : TxStore} {tx : RuntimeTransaction} {asked : TxState}
    {updates : List Update} {now : ℕ} :
    Writes stored tx asked (replaceTx stored tx asked updates now).1
      (replaceTx stored tx asked updates now).2 :=
  ⟨history_updates updates tx, rfl, rfl, rfl⟩

variable {stored : TxStore} {tx : RuntimeTransaction} {asked : TxState}

theorem transition_isOk {updates : List Update} {now : ℕ} (h : asked ∈ allowedTransitions tx.state)
    : ∃ r, transition stored tx asked updates now = .ok r := by
  unfold transition
  rw [if_neg (not_not.mpr h)]
  exact ⟨_, rfl⟩

/-- The failed transaction stays failed when its rollback is recorded. -/
def Steps (tx : RuntimeTransaction) (asked : TxState) : Prop :=
  asked = tx.state ∨ asked ∈ allowedTransitions tx.state

/-- The fields that a call replaces. -/
def RecordOp.updates (tx : RuntimeTransaction) : RecordOp → List Update
  | preflight result => [.preflightResult (dictOf result)]
  | approval result => [.approvalResult (dictOf result)]
  | apply result affectedFiles =>
    .applyResult (dictOf result) ::
      if normalizeTextTuple affectedFiles ≠ [] then
        [.affectedFiles (fromKeys (tx.affectedFiles ++ normalizeTextTuple affectedFiles))]
      else []
  | verification result =>
    if resultOk result then [.verificationResult (dictOf result)]
    else
      [.verificationResult (dictOf result),
        .failureResult [("reason", .str (((Val.getIn "reason" (dictOf result)).orElse
          (Val.getIn "message" (dictOf result))).orElse (.str "verification_failed")).toText)]]
  | commit result => [.commitResult (dictOf result)]
  | rollback result => [.rollbackResult (dictOf result)]
  | failure reason result =>
    [.failureResult ((dictOf result).foldl (fun kvs e => Val.put e.1 e.2 kvs)
      [("reason", .str reason.toText)])]
  | audit refs => [.auditRefs (fromKeys (tx.auditRefs ++ normalizeTextTuple refs))]

theorem transition_eq {updates : List Update} {now : ℕ} {r : RuntimeTransaction × TxStore}
    (h : transition stored tx asked updates now = .ok r) :
    asked ∈ allowedTransitions tx.state ∧ r = replaceTx stored tx asked updates now := by
  unfold transition at h
  split at h
  · cases h
  · rename_i hallowed
    exact ⟨not_not.mp hallowed, (Except.ok.inj h).symm⟩

/-- What a `record_*` operation answers: the transaction moved to the state that was asked for. -/
theorem record_eq {ref : TxRef} {op : RecordOp} {now : ℕ} {r : RuntimeTransaction × TxStore}
    (h : record stored ref now op = .ok r) :
    ∃ tx, getTransaction stored ref = .ok tx ∧ op.Accepted tx ∧ Steps tx (op.asked tx) ∧
      r = replaceTx stored tx (op.asked tx) (op.updates tx) now := by
  cases op with
  | preflight result =>
    obtain ⟨tx, htx, h⟩ := bind_eq_ok.mp h
    obtain ⟨hallowed, hr⟩ := transition_eq h
    exact ⟨tx, htx, hallowed, .inr hallowed, hr⟩
  | approval result =>
    obtain ⟨tx, htx, h⟩ := bind_eq_ok.mp h
    obtain ⟨hallowed, hr⟩ := transition_eq h
    exact ⟨tx, htx, hallowed, .inr hallowed, hr⟩
  | apply result affectedFiles =>
    obtain ⟨tx, htx, h⟩ := bind_eq_ok.mp h
    obtain ⟨hallowed, hr⟩ := transition_eq h
    exact ⟨tx, htx, hallowed, .inr hallowed, hr⟩
  | verification result =>
    obtain ⟨tx, htx, h⟩ := bind_eq_ok.mp h
    have hasked : (RecordOp.verification result).asked tx =
        if resultOk result then .verified else .failed := rfl
    have hupdates : (RecordOp.verification result).updates tx = if resultOk result then _ else _ :=
      rfl
    split at h
    · rename_i hok
      obtain ⟨hallowed, hr⟩ := transition_eq h
      rw [if_pos hok] at hasked hupdates
      rw [← hasked] at hallowed hr
      rw [← hupdates] at hr
      exact ⟨tx, htx, hallowed, .inr hallowed, hr⟩
    · rename_i hok
      obtain ⟨hallowed, hr⟩ := transition_eq h
      rw [if_neg hok] at hasked hupdates
      rw [← hasked] at hallowed hr
      rw [← hupdates] at hr
      exact ⟨tx, htx, hallowed, .inr hallowed, hr⟩
  | commit result =>
    obtain ⟨tx, htx, h⟩ := bind_eq_ok.mp h
    split at h
    · cases h
    · rename_i hguard
      rw [not_or, not_not, not_not] at hguard
      obtain ⟨hallowed, hr⟩ := transition_eq h
      exact ⟨tx, htx, hguard, .inr hallowed, hr⟩
  | rollback result =>
    obtain ⟨tx, htx, h⟩ := bind_eq_ok.mp h
    have hasked : (RecordOp.rollback result).asked tx =
        if tx.state = .failed then .failed else .rolledBack := rfl
    dsimp only at h
    split at h
    · cases h
    rename_i hevidence
    split at h
    · cases h
    rename_i hstate
    have haccepted : (RecordOp.rollback result).Accepted tx :=
      ⟨not_not.mp hevidence, not_not.mp hstate⟩
    split at h
    · rename_i hfailed
      rw [if_pos hfailed, ← hfailed] at hasked
      rw [← hasked] at h
      exact ⟨tx, htx, haccepted, .inl hasked, (Except.ok.inj h).symm⟩
    · rename_i hfailed
      rw [if_neg hfailed] at hasked
      obtain ⟨hallowed, hr⟩ := transition_eq h
      rw [← hasked] at hallowed hr
      exact ⟨tx, htx, haccepted, .inr hallowed, hr⟩
  | failure reason result =>
    change recordFailure stored ref now reason result = _ at h
    unfold recordFailure at h
    split at h
    · cases h
    · rename_i hreason
      obtain ⟨tx, htx, h⟩ := bind_eq_ok.mp h
      obtain ⟨hallowed, hr⟩ := transition_eq h
      exact ⟨tx, htx, ⟨hreason, hallowed⟩, .inr hallowed, hr⟩
  | audit refs =>
    obtain ⟨tx, htx, h⟩ := bind_eq_ok.mp h
    split at h
    · cases h
    · obtain ⟨hallowed, hr⟩ := transition_eq h
      exact ⟨tx, htx, hallowed, .inr hallowed, hr⟩

theorem record_ok {stored' : TxStore} {ref : TxRef} {op : RecordOp} {now : ℕ}
    {u : RuntimeTransaction} (h : record stored ref now op = .ok (u, stored')) :
    ∃ tx, getTransaction stored ref = .ok tx ∧ op.Accepted tx ∧ Steps tx (op.asked tx) ∧
      Writes stored tx (op.asked tx) u stored' := by
  obtain ⟨tx, htx, haccepted, hsteps, hr⟩ := record_eq h
  have hwrites := @writes_replaceTx stored tx (op.asked tx) (op.updates tx) now
  rw [← hr] at hwrites
  exact ⟨tx, htx, haccepted, hsteps, hwrites⟩

theorem record_isOk {stored : TxStore} {ref : TxRef} {op : RecordOp} {now : ℕ}
    {tx : RuntimeTransaction} (htx : getTransaction stored ref = .ok tx) (h : op.Accepted tx) :
    ∃ r, record stored ref now op = .ok r := by
  cases op with
  | preflight result =>
    change ∃ r, recordPreflight stored ref now result = .ok r
    unfold recordPreflight
    rw [htx]
    exact transition_isOk h
  | approval result =>
    change ∃ r, recordApproval stored ref now result = .ok r
    unfold recordApproval
    rw [htx]
    exact transition_isOk h
  | apply result affectedFiles =>
    change ∃ r, recordApply stored ref now result affectedFiles = .ok r
    unfold recordApply
    rw [htx]
    exact transition_isOk h
  | verification result =>
    change ∃ r, recordVerification stored ref now result = .ok r
    change (if resultOk result then TxState.verified else .failed) ∈ allowedTransitions tx.state at h
    unfold recordVerification
    rw [htx]
    dsimp only [bind, Except.bind]
    split
    · rename_i hok
      rw [if_pos hok] at h
      exact transition_isOk h
    · rename_i hok
      rw [if_neg hok] at h
      exact transition_isOk h
  | commit result =>
    change ∃ r, recordCommit stored ref now result = .ok r
    obtain ⟨hstate, hok⟩ := h
    unfold recordCommit
    rw [htx]
    dsimp only [bind, Except.bind]
    rw [if_neg (by simp [hstate, hok])]
    refine transition_isOk ?_
    rw [hstate]
    decide
  | rollback result =>
    change ∃ r, recordRollback stored ref now result = .ok r
    obtain ⟨hevidence, hstate⟩ := h
    unfold recordRollback
    rw [htx]
    dsimp only [bind, Except.bind]
    rw [if_neg (not_not.mpr hevidence), if_neg (not_not.mpr hstate)]
    split
    · exact ⟨_, rfl⟩
    · rename_i hfailed
      refine transition_isOk ?_
      simp only [List.mem_cons, List.not_mem_nil, or_false] at hstate
      rcases hstate with hstate | hstate | hstate
      · rw [hstate]
        decide
      · rw [hstate]
        decide
      · exact absurd hstate hfailed
  | failure reason result =>
    change ∃ r, recordFailure stored ref now reason result = .ok r
    obtain ⟨hreason, hallowed⟩ := h
    unfold recordFailure
    rw [if_neg hreason, htx]
    exact transition_isOk hallowed
  | audit refs =>
    change ∃ r, recordAudit stored ref now refs = .ok r
    change TxState.audited ∈ allowedTransitions tx.state at h
    have hstate : tx.state ∈ [TxState.blocked, .committed, .rolledBack, .failed] := by
      revert h
      cases tx.state <;> decide
    unfold recordAudit
    rw [htx]
    dsimp only [bind, Except.bind]
    rw [if_neg (not_not.mpr hstate)]
    exact transition_isOk h

/-! ## Histories -/

/-- A transaction's history is a path to its state. -/
structure Tracked (tx : RuntimeTransaction) : Prop where
  path : IsPath tx.stateHistory
  last : tx.stateHistory.getLast? = some tx.state

theorem Tracked.written {stored' : TxStore} {u : RuntimeTransaction} (htx : Tracked tx)
    (hsteps : Steps tx asked) (h : Writes stored tx asked u stored') : Tracked u := by
  by_cases hasked : asked = tx.state
  · have hhistory := h.history
    rw [if_neg (not_not.mpr hasked)] at hhistory
    refine ⟨?_, ?_⟩
    · rw [hhistory]
      exact htx.path
    · rw [hhistory, h.state, hasked]
      exact htx.last
  · have hhistory := h.history
    rw [if_pos hasked] at hhistory
    refine ⟨?_, ?_⟩
    · rw [hhistory]
      refine List.isChain_append.mpr ⟨htx.path, List.isChain_singleton _, ?_⟩
      intro x hx y hy
      rw [htx.last, Option.mem_some_iff] at hx
      rw [List.head?_cons, Option.mem_some_iff] at hy
      rw [← hx, ← hy]
      exact hsteps.resolve_left hasked
    · rw [hhistory, h.state, List.getLast?_append, List.getLast?_singleton]
      rfl

/-- Where a history has grown from one that had come to an end, there is only the audit. -/
theorem Tracked.ended {s u : RuntimeTransaction} (hs : Tracked s) (hu : Tracked u)
    (hgrows : s.stateHistory <+: u.stateHistory) (hend : s.state ∈ ended) :
    u.state = s.state ∨ u.state = .audited := by
  have hnext : ∀ b, b ∈ allowedTransitions s.state → b = .audited := by
    revert hend
    cases s.state <;> decide
  obtain ⟨rest, hrest⟩ := hgrows
  have hpath := hu.path
  have hlast := hu.last
  rw [← hrest] at hpath hlast
  cases rest with
  | nil =>
    rw [List.append_nil, hs.last, Option.some.injEq] at hlast
    exact .inl hlast.symm
  | cons a rest =>
    obtain ⟨-, hrestPath, hjoin⟩ := List.isChain_append.mp hpath
    have ha : a = .audited := hnext a (hjoin _ hs.last a rfl)
    cases rest with
    | nil =>
      rw [List.getLast?_append, List.getLast?_singleton, Option.some_or, Option.some.injEq] at hlast
      exact .inr (hlast.symm.trans ha)
    | cons b rest =>
      have hb := (List.isChain_cons_cons.mp hrestPath).1
      rw [ha] at hb
      cases hb

/-- The history that is written extends the stored one exactly if the transaction is current. -/
theorem current_iff {s u : RuntimeTransaction} {stored' : TxStore}
    (hs : stored.get? tx.transactionId = some s) (hage : tx.stateHistory <+: s.stateHistory)
    (h : Writes stored tx asked u stored') :
    s.stateHistory <+: u.stateHistory ↔ Current stored tx asked := by
  have hcurrent : Current stored tx asked ↔ s.stateHistory = tx.stateHistory ∨
      asked ≠ tx.state ∧ s.stateHistory = tx.stateHistory ++ [asked] := by
    unfold Current
    rw [hs]
    constructor
    · intro h
      exact h s rfl
    · rintro h s' hs'
      cases hs'
      exact h
  have hback : s.stateHistory <+: tx.stateHistory ↔ s.stateHistory = tx.stateHistory :=
    ⟨fun h => h.eq_of_length_le hage.length_le, fun h => h ▸ List.prefix_refl _⟩
  rw [hcurrent, h.history]
  by_cases hasked : asked = tx.state
  · rw [if_neg (not_not.mpr hasked), hback]
    exact ⟨.inl, fun h => h.resolve_right fun hright => hright.1 hasked⟩
  · rw [if_pos hasked, List.prefix_concat_iff, hback]
    constructor
    · rintro (hlong | hsame)
      · exact .inr ⟨hasked, hlong⟩
      · exact .inl hsame
    · rintro (hsame | ⟨-, hlong⟩)
      · exact .inr hsame
      · exact .inl hlong

/-! ## Creating -/

section Digest

variable {digest : String → String}

theorem riskOf_surface (surface : Val) (h : (classifyRuntimeSurface surface).anonymous = false)
    (hmutation : (classifyRuntimeSurface surface).requiresTransaction = true) :
    riskOf (classifyRuntimeSurface surface).risk ≠ none := by
  have hall : ∀ s ∈ surfaces, s.requiresTransaction = true → riskOf s.risk ≠ none := by
    decide +kernel
  unfold classifyRuntimeSurface at h hmutation ⊢
  dsimp only at h hmutation ⊢
  split at h
  · rename_i known hknown
    rw [hknown] at hmutation
    exact hall known (List.mem_of_find?_eq_some hknown) hmutation
  · split at h
    · cases h
    · split at h <;> cases h

variable {tx : RuntimeTransaction}

theorem createTransaction_ok {stored stored' : TxStore} {a : CreateArgs} {now : ℕ}
    (h : createTransaction digest stored a now = .ok (tx, stored')) :
    a.Accepted ∧ tx.transactionId = transactionId digest a.required (stored.entries.length + 1) ∧
      tx.state = .proposed ∧ tx.stateHistory = [.proposed] ∧
      stored' = stored.set tx.transactionId tx := by
  unfold createTransaction at h
  dsimp only at h
  split at h
  · cases h
  rename_i hsurface
  rw [not_or, Bool.not_eq_true, not_not] at hsurface
  split at h
  · cases h
  rename_i hnamed
  split at h
  · cases h
  rename_i hevidence
  split at h
  · cases h
  · cases h
    refine ⟨⟨hsurface.1, hsurface.2, not_not.mp hnamed, fun hname => ?_⟩, rfl, rfl, rfl, rfl⟩
    by_contra hnone
    exact hevidence ⟨hname, hnone⟩

theorem createTransaction_isOk {stored : TxStore} {a : CreateArgs} {now : ℕ} (h : a.Accepted) :
    ∃ r, createTransaction digest stored a now = .ok r := by
  have hrisk := riskOf_surface a.surface h.listed h.mutation
  unfold createTransaction
  dsimp only
  rw [if_neg (by simp [h.listed, h.mutation]), if_neg (not_not.mpr h.named), if_neg ?_]
  · split
    · rename_i hnone
      exact absurd hnone hrisk
    · exact ⟨_, rfl⟩
  · rintro ⟨hname, hnone⟩
    exact hnone (h.evidence hname)

/-! ## What runs keep -/

structure Kept (w : World) : Prop where
  ids : ∀ id tx, w.stored.get? id = some tx → tx.transactionId = id
  tracked : ∀ id tx, w.stored.get? id = some tx → Tracked tx
  answered : ∀ tx ∈ w.answered, Tracked tx ∧ ∃ s, w.stored.get? tx.transactionId = some s ∧
    tx.stateHistory <+: s.stateHistory

theorem kept_start : Kept World.start where
  ids _ _ h := by cases h
  tracked _ _ h := by cases h
  answered _ h := by cases h

variable {w : World}

theorem step_of_none {c : TxCall} (h : c.answer digest w = none) :
    ((txMachine digest).step w c).2 = w := by
  change w.after (c.answer digest w) = w
  rw [h]
  rfl

theorem step_of_error {w : World} {c : TxCall} {err : Err}
    (h : c.answer digest w = some (.error err)) : ((txMachine digest).step w c).2 = w := by
  change w.after (c.answer digest w) = w
  rw [h]
  rfl

theorem step_of_ok {w : World} {c : TxCall} {tx : RuntimeTransaction} {stored : TxStore}
    (h : c.answer digest w = some (.ok (tx, stored))) :
    ((txMachine digest).step w c).2 = ⟨stored, w.answered ++ [tx]⟩ := by
  change w.after (c.answer digest w) = _
  rw [h]
  rfl

/-- A call that changes nothing is lawful. -/
theorem lawful_of_same {c : TxCall} (hw : Kept w) (hstep : ((txMachine digest).step w c).2 = w)
    (hcreate : ∀ a now r, c = .create a now → createTransaction digest w.stored a now ≠ .ok r) :
    Lawful digest w c where
  grows id tx htx := by
    rw [hstep]
    exact ⟨tx, htx, List.prefix_refl _⟩
  path id tx htx := by
    rw [hstep] at htx
    exact (hw.tracked id tx htx).path
  ended id tx tx' htx htx' _ := by
    rw [hstep, htx, Option.some.injEq] at htx'
    rw [htx']
    exact .inl rfl
  created a now tx stored hc h := absurd h (hcreate a now _ hc)

section Write

variable {w : World} {c : TxCall} {u : RuntimeTransaction}

theorem get?_written
    (hstep : ((txMachine digest).step w c).2.stored = w.stored.set u.transactionId u) (id : String) :
    ((txMachine digest).step w c).2.stored.get? id =
      if id = u.transactionId then some u else w.stored.get? id := by
  rw [hstep, Dict.get?_set]

theorem grows_of_lawful
    (hstep : ((txMachine digest).step w c).2.stored = w.stored.set u.transactionId u)
    (h : Lawful digest w c) (s : RuntimeTransaction) (hs : w.stored.get? u.transactionId = some s) :
    s.stateHistory <+: u.stateHistory := by
  obtain ⟨u', hu', hgrows⟩ := h.grows _ s hs
  rw [get?_written hstep, if_pos rfl, Option.some.injEq] at hu'
  rw [hu']
  exact hgrows

theorem lawful_of_grows (hw : Kept w) (hu : Tracked u)
    (hstep : ((txMachine digest).step w c).2.stored = w.stored.set u.transactionId u)
    (hcreated : ∀ a now tx stored, c = .create a now →
      createTransaction digest w.stored a now = .ok (tx, stored) →
        w.stored.get? tx.transactionId = none)
    (h : ∀ s, w.stored.get? u.transactionId = some s → s.stateHistory <+: u.stateHistory) :
    Lawful digest w c := by
  refine ⟨fun id tx htx => ?_, fun id tx htx => ?_, fun id tx tx' htx htx' hend => ?_, hcreated⟩
  · rw [get?_written hstep]
    by_cases hid : id = u.transactionId
    · rw [if_pos hid]
      rw [hid] at htx
      exact ⟨u, rfl, h tx htx⟩
    · rw [if_neg hid]
      exact ⟨tx, htx, List.prefix_refl _⟩
  · rw [get?_written hstep] at htx
    split at htx
    · cases htx
      exact hu.path
    · exact (hw.tracked id tx htx).path
  · rw [get?_written hstep] at htx'
    split at htx'
    · rename_i hid
      cases htx'
      rw [hid] at htx
      exact (hw.tracked _ tx htx).ended hu (h tx htx) hend
    · rw [htx, Option.some.injEq] at htx'
      rw [htx']
      exact .inl rfl

end Write

theorem tracked_created {stored stored' : TxStore} {a : CreateArgs} {now : ℕ}
    (h : createTransaction digest stored a now = .ok (tx, stored')) : Tracked tx := by
  obtain ⟨-, -, hstate, hhistory, -⟩ := createTransaction_ok h
  refine ⟨?_, ?_⟩
  · rw [hhistory]
    exact List.isChain_singleton _
  · rw [hhistory, hstate]
    rfl

theorem lawful_create (hw : Kept w) (a : CreateArgs) (now : ℕ) :
    Lawful digest w (.create a now) ↔ Careful digest w (.create a now) := by
  cases hanswer : createTransaction digest w.stored a now with
  | error err =>
    have hstep := @step_of_error digest w (.create a now) err (congrArg some hanswer)
    refine iff_of_true (lawful_of_same hw hstep ?_) fun haccepted => ?_
    · rintro a' now' r ⟨⟩ hr
      rw [hanswer] at hr
      cases hr
    · obtain ⟨r, hr⟩ := @createTransaction_isOk digest w.stored a now haccepted
      rw [hanswer] at hr
      cases hr
  | ok r =>
    obtain ⟨tx, stored⟩ := r
    have hstep := @step_of_ok digest w (.create a now) tx stored (congrArg some hanswer)
    obtain ⟨haccepted, hid, -, -, hstored⟩ := createTransaction_ok hanswer
    constructor
    · intro h _
      rw [← hid]
      exact h.created a now tx stored rfl hanswer
    · intro h
      have hnone := h haccepted
      rw [← hid] at hnone
      refine lawful_of_grows hw (tracked_created hanswer) ?_ ?_ fun s hs => ?_
      · rw [hstep, hstored]
      · rintro a' now' tx' stored' ⟨⟩ hr
        rw [hanswer] at hr
        cases hr
        exact hnone
      · rw [hnone] at hs
        cases hs

theorem getTransaction_id {stored : TxStore} {value : Val}
    (h : getTransaction stored (.id value) = .ok tx) :
    stored.get? (value.orElse (.str "")).toText = some tx := by
  unfold getTransaction at h
  dsimp only at h
  split at h
  · rename_i s hs
    cases h
    exact hs
  · cases h

theorem ref_earlier {n : ℕ} {ref : TxRef} (h : w.ref (.earlier n) = some ref) :
    ∃ tx, w.answered[n]? = some tx ∧ ref = .object tx := by
  obtain ⟨tx, htx, href⟩ := Option.map_eq_some_iff.mp h
  exact ⟨tx, htx, href.symm⟩

/-- What a caller holds was stored once. -/
theorem Kept.held (hw : Kept w) {handle : Handle} {ref : TxRef} (href : w.ref handle = some ref)
    (htx : getTransaction w.stored ref = .ok tx) :
    Tracked tx ∧ ∃ s, w.stored.get? tx.transactionId = some s ∧
      tx.stateHistory <+: s.stateHistory := by
  cases handle with
  | id value =>
    cases href
    have hs := getTransaction_id htx
    refine ⟨hw.tracked _ tx hs, tx, ?_, List.prefix_refl _⟩
    rw [hw.ids _ tx hs]
    exact hs
  | earlier n =>
    obtain ⟨tx', htx', rfl⟩ := ref_earlier href
    cases htx
    exact hw.answered tx (List.mem_of_getElem? htx')

theorem lawful_record (hw : Kept w) (handle : Handle) (op : RecordOp) (now : ℕ) :
    Lawful digest w (.record handle op now) ↔ Careful digest w (.record handle op now) := by
  have hsame : ((txMachine digest).step w (.record handle op now)).2 = w →
      Lawful digest w (.record handle op now) := fun hstep =>
    lawful_of_same hw hstep fun a now' r hc => by cases hc
  cases href : w.ref handle with
  | none =>
    have hanswer : (TxCall.record handle op now).answer digest w = none := by
      change (w.ref handle).map _ = none
      rw [href]
      rfl
    refine iff_of_true (hsame (step_of_none hanswer)) ?_
    cases handle with
    | id value => trivial
    | earlier n =>
      intro tx htx
      change (w.answered[n]?).map TxRef.object = none at href
      rw [htx] at href
      cases href
  | some ref =>
    have hanswer : (TxCall.record handle op now).answer digest w =
        some (record w.stored ref now op) := by
      change (w.ref handle).map _ = _
      rw [href]
      rfl
    cases hrecord : record w.stored ref now op with
    | error err =>
      rw [hrecord] at hanswer
      refine iff_of_true (hsame (step_of_error hanswer)) ?_
      cases handle with
      | id value => trivial
      | earlier n =>
        intro tx htx haccepted
        obtain ⟨tx', htx', rfl⟩ := ref_earlier href
        rw [htx, Option.some.injEq] at htx'
        subst htx'
        obtain ⟨r, hr⟩ := @record_isOk w.stored (.object tx) op now tx rfl haccepted
        rw [hrecord] at hr
        cases hr
    | ok r =>
      obtain ⟨u, stored⟩ := r
      rw [hrecord] at hanswer
      obtain ⟨tx, htx, haccepted, hsteps, hwrites⟩ := record_ok hrecord
      obtain ⟨htracked, s, hs, hage⟩ := hw.held href htx
      have hstep := step_of_ok hanswer
      have hstored : ((txMachine digest).step w (.record handle op now)).2.stored =
          w.stored.set u.transactionId u := by
        rw [hstep]
        exact hwrites.stored
      have hsu : w.stored.get? u.transactionId = some s := by
        rw [hwrites.id]
        exact hs
      have hlaw : Lawful digest w (.record handle op now) ↔ Current w.stored tx (op.asked tx) := by
        rw [← current_iff hs hage hwrites]
        constructor
        · intro h
          exact grows_of_lawful hstored h s hsu
        · intro h
          refine lawful_of_grows hw (htracked.written hsteps hwrites) hstored ?_ fun s' hs' => ?_
          · intro a now' tx' stored' hc
            cases hc
          · rw [hsu, Option.some.injEq] at hs'
            rw [← hs']
            exact h
      rw [hlaw]
      cases handle with
      | id value =>
        cases href
        have hid := getTransaction_id htx
        refine iff_of_true (fun s' hs' => ?_) trivial
        rw [hw.ids _ tx hid, hid, Option.some.injEq] at hs'
        exact .inl (by rw [hs'])
      | earlier n =>
        obtain ⟨tx', htx', rfl⟩ := ref_earlier href
        cases htx
        refine ⟨fun h tx' htx'' _ => ?_, fun h => h tx htx' haccepted⟩
        rw [htx', Option.some.injEq] at htx''
        rw [← htx'']
        exact h

theorem lawful_iff_careful_step (hw : Kept w) (c : TxCall) :
    Lawful digest w c ↔ Careful digest w c := by
  cases c with
  | create a now => exact lawful_create hw a now
  | record handle op now => exact lawful_record hw handle op now

/-! ## Runs -/

theorem kept_write {c : TxCall} {u : RuntimeTransaction} {stored : TxStore} (hw : Kept w)
    (hlaw : Lawful digest w c) (hu : Tracked u)
    (hanswer : c.answer digest w = some (.ok (u, stored)))
    (hstored : stored = w.stored.set u.transactionId u) : Kept ((txMachine digest).step w c).2 := by
  have hstep := step_of_ok hanswer
  have hget : ∀ id, ((txMachine digest).step w c).2.stored.get? id =
      if id = u.transactionId then some u else w.stored.get? id := by
    refine get?_written ?_
    rw [hstep]
    exact hstored
  refine ⟨fun id tx htx => ?_, fun id tx htx => ?_, fun tx htx => ?_⟩
  · rw [hget] at htx
    split at htx
    · rename_i hid
      cases htx
      exact hid.symm
    · exact hw.ids id tx htx
  · rw [hget] at htx
    split at htx
    · cases htx
      exact hu
    · exact hw.tracked id tx htx
  · have hmem : tx ∈ w.answered ++ [u] := by
      rw [hstep] at htx
      exact htx
    rcases List.mem_append.mp hmem with hold | hnew
    · obtain ⟨htracked, s, hs, hage⟩ := hw.answered tx hold
      obtain ⟨s', hs', hgrows⟩ := hlaw.grows _ s hs
      exact ⟨htracked, s', hs', hage.trans hgrows⟩
    · rw [List.mem_singleton] at hnew
      rw [hnew]
      refine ⟨hu, u, ?_, List.prefix_refl _⟩
      rw [hget, if_pos rfl]

theorem kept_step (w : World) (c : TxCall) (hw : Kept w) (hlaw : Lawful digest w c) :
    Kept ((txMachine digest).step w c).2 := by
  cases hanswer : c.answer digest w with
  | none =>
    rw [step_of_none hanswer]
    exact hw
  | some r =>
    cases r with
    | error err =>
      rw [step_of_error hanswer]
      exact hw
    | ok r =>
      obtain ⟨u, stored⟩ := r
      cases c with
      | create a now =>
        have hcreate := Option.some.inj hanswer
        exact kept_write hw hlaw (tracked_created hcreate) hanswer
          (createTransaction_ok hcreate).2.2.2.2
      | record handle op now =>
        obtain ⟨ref, href, hrecord⟩ := Option.map_eq_some_iff.mp hanswer
        obtain ⟨tx, htx, -, hsteps, hwrites⟩ := record_ok hrecord
        exact kept_write hw hlaw ((hw.held href htx).1.written hsteps hwrites) hanswer
          hwrites.stored

/-- The runs whose calls all keep the law are those whose calls are all careful. -/
theorem lawful_iff_careful (calls : List TxCall) :
    (txMachine digest).Guarded (Lawful digest) World.start calls ↔
      (txMachine digest).Guarded (Careful digest) World.start calls :=
  Machine.guarded_iff_of_invariant (fun _ c hw => lawful_iff_careful_step hw c) kept_step kept_start

end Digest

/-! ## A transaction that is rolled back after its commit -/

def sampleArgs : CreateArgs where
  taskId := .str "task"
  stepId := .str "step"
  traceId := .str "trace"
  authoritySource := .str "operator"
  surface := .str "write_file"
  affectedFiles := .list [.str "a.py"]

def okResult : Option Entries := some [("ok", .bool true)]

/-- The caller of the rollback holds the transaction as it was when it was applied. -/
def lateRollback : List TxCall :=
  [.create sampleArgs 0, .record (.earlier 0) (.preflight okResult) 1,
    .record (.earlier 1) (.approval okResult) 2, .record (.earlier 2) (.apply okResult .none) 3,
    .record (.earlier 3) (.verification okResult) 4, .record (.earlier 4) (.commit okResult) 5,
    .record (.earlier 3) (.rollback okResult) 6]

def undone (w w' : World) (txId : String) : Bool :=
  (w.stored.get? txId).any fun s => (w'.stored.get? txId).any fun s' =>
    s.state = .committed ∧ s'.state = .rolledBack

theorem not_lawful_of_undone {w : World} {c : TxCall} {txId : String}
    (h : undone w ((txMachine id).step w c).2 txId = true) : ¬Lawful id w c := by
  intro hlaw
  obtain ⟨s, hs, h⟩ := (Option.any_eq_true _ _).mp h
  obtain ⟨s', hs', h⟩ := (Option.any_eq_true _ _).mp h
  obtain ⟨hcommitted, hrolledBack⟩ := of_decide_eq_true h
  have hend := hlaw.ended _ s s' hs hs'
  rw [hcommitted, hrolledBack] at hend
  revert hend
  decide

theorem committed_rolled_back :
    ¬(txMachine id).Guarded (Lawful id) World.start lateRollback := by
  intro h
  refine @not_lawful_of_undone _ _ (transactionId id sampleArgs.required 1) ?_ h.2.2.2.2.2.2.1
  decide +kernel

end Transactions
end ZeroRuntime
