import ZeroRuntime.Lib.Machine
import ZeroRuntime.Mutation.Frame

/-!
# ZeroRuntime.Mutation.TokenUse

How often an authorization token is used.

The use of a token is recorded in the manifest of the transaction it is used for, and nowhere else:
a record of another transaction is never looked at. The id of a transaction comes from the handoff.

* `recorded_stable`: a token record is never changed.
* `gatePhase_keeps`, `gatePhase_entered`: a call that comes through its commit gate has a
  transaction directory of its own, with its token recorded in it.
* `unshared_token_used_once`: in a run in which no call brings a token that another transaction has
  recorded, no token is used twice.
* `token_used_twice`: two handoffs with copies of one token.
-/

namespace ZeroRuntime
namespace Mutation

open Lib Workspace

/-! ## Token records -/

def tokenRecord (m : Entries) : Option Entries :=
  match Val.find "token_consumption" m with
  | some (.dict t) => some t
  | _ => none

def recordedIn (m : Entries) : Option Val :=
  (tokenRecord m).bind fun t => Val.find "authorization_token_id" t

def manifestOf (s : Workspace) (txid : String) : Option Entries :=
  match s.file txid ⟨.manifest, false⟩ with
  | some (.json (.dict m)) => some m
  | _ => none

/-- The authorization token a transaction records. -/
def recordedToken (s : Workspace) (txid : String) : Option Val :=
  (manifestOf s txid).bind recordedIn

/-- The same, where the manifest says that the token is consumed. -/
def consumedToken (s : Workspace) (txid : String) : Option Val :=
  (manifestOf s txid).bind fun m => (tokenRecord m).bind fun t =>
    if (Val.getIn "authorization" t).eq (.str "consumed") then Val.find "authorization_token_id" t
    else none

variable {s : Workspace}

theorem recordedToken_of_consumed {txid : String} {t : Val} (h : consumedToken s txid = some t) :
    recordedToken s txid = some t := by
  unfold consumedToken at h
  unfold recordedToken recordedIn
  obtain ⟨m, hm, h⟩ := Option.bind_eq_some_iff.mp h
  obtain ⟨r, hr, h⟩ := Option.bind_eq_some_iff.mp h
  split at h
  · rw [hm, Option.bind_some, hr, Option.bind_some, h]
  · cases h

theorem recordedIn_put {k : String} {v : Val} {m : Entries} (hk : k ≠ "token_consumption") :
    recordedIn (Val.put k v m) = recordedIn m := by
  unfold recordedIn tokenRecord
  rw [Val.find_put, if_neg (Ne.symm hk)]

theorem recordedIn_record (t m : Entries) :
    recordedIn (Val.put "token_consumption" (.dict t) m) = Val.find "authorization_token_id" t := by
  simp [recordedIn, tokenRecord]

/-- The transaction records this token. -/
def Records (x : String) (t : Val) (s : Workspace) : Prop := recordedToken s x = some t

theorem Records.contains {x : String} {t : Val} (h : Records x t s) :
    s.store.contains x = true := by
  unfold Records recordedToken manifestOf at h
  split at h
  · rename_i hfile
    exact contains_of_file hfile
  · cases h

theorem Records.congr {x : String} {t : Val} {s₀ : Workspace}
    (hfile : s.file x ⟨.manifest, false⟩ = s₀.file x ⟨.manifest, false⟩) (h : Records x t s₀) :
    Records x t s := by
  unfold Records recordedToken manifestOf at *
  rw [hfile]
  exact h

section Stable

variable {x txid : String} {t : Val} {plan : Plan}

/-- A program that leaves the manifest alone keeps the record. -/
theorem records_of_frame {α : Type} {T : TxPath → Prop} {m : Run α}
    (hm : ∀ s₀, Keeps (Frame txid T s₀) m) (hT : x ≠ txid ∨ ¬ T ⟨.manifest, false⟩) :
    Keeps (Records x t) m := by
  intro plan
  refine Triple.intro fun s₀ hs₀ => ?_
  have hkeep : ∀ s, Frame txid T s₀ s → Records x t s := by
    intro s hs
    exact hs₀.congr (hs.files x _ hT)
  refine (hm s₀ plan).conseq ?_ (fun _ s hs => hkeep s hs) (fun s hs => hkeep s hs)
    (fun s hs => hkeep s hs)
  rintro s rfl
  exact Frame.refl s

/-- Writing a manifest that records the token as the one before did. -/
theorem writeManifest_triple {m : Entries} (hm : x = txid → recordedIn m = some t) :
    Triple plan (Records x t) (writeJsonAtomic txid .manifest (.dict m))
      (Post.always (Records x t)) := by
  refine Triple.intro fun s₀ hs₀ => ?_
  have htemp : ∀ s, Frame txid (IsTemporary .manifest) s₀ s → Records x t s := by
    intro s hs
    refine hs₀.congr (hs.files x _ (.inr ?_))
    intro h
    cases h
  refine writeJsonAtomic_triple.conseq (fun _ h => h) ?_ htemp htemp
  rintro - s ⟨hframe, hfile, -⟩
  by_cases hx : x = txid
  · subst hx
    change recordedToken s x = some t
    unfold recordedToken manifestOf
    rw [hfile]
    exact hm rfl
  · exact hs₀.congr (hframe.files x _ (.inl hx))

theorem readManifest_triple {β : Type} {f : Entries → Run β} {Q : Post Workspace β}
    (hf : ∀ m, (x = txid → recordedIn m = some t) → Triple plan (Records x t) (f m) Q)
    (hraised : ∀ s, Records x t s → Q.raised s) (hcrashed : ∀ s, Records x t s → Q.crashed s) :
    Triple plan (Records x t) (readJson txid .manifest >>= f) Q := by
  refine Triple.bind (R := fun m s => Records x t s ∧ (x = txid → recordedIn m = some t)) ?_
    fun m => ?_
  · refine Triple.query hraised hcrashed ?_
    intro s m hs hm
    refine ⟨hs, ?_⟩
    rintro rfl
    split at hm
    · rename_i kvs hfile
      cases hm
      unfold Records recordedToken manifestOf at hs
      rw [hfile] at hs
      exact hs
    · cases hm
  · refine Triple.intro fun s hs => ?_
    refine (hf m hs.2).conseq ?_ (fun _ _ h => h) (fun _ h => h) fun _ h => h
    rintro s' rfl
    exact hs.1

theorem transitionState_records (state : String) : Keeps (Records x t) (transitionState txid state) := by
  intro plan
  refine readManifest_triple ?_ (fun _ hs => hs) (fun _ hs => hs)
  intro m hm
  split
  · refine Triple.bind (R := fun _ => Records x t) (writeManifest_triple ?_) fun _ =>
      Triple.pure fun _ hs => hs
    intro hx
    rw [recordedIn_put (by decide)]
    exact hm hx
  · exact Triple.pure fun _ hs => hs

theorem finalizeTokenConsumption_records :
    Keeps (Records x t) (finalizeTokenConsumption txid) := by
  intro plan
  refine readManifest_triple ?_ (fun _ hs => hs) (fun _ hs => hs)
  intro m hm
  split
  · rename_i r hr
    refine Triple.bind (R := fun _ => Records x t) (writeManifest_triple ?_) fun _ =>
      Triple.pure fun _ hs => hs
    intro hx
    have hrec := hm hx
    rw [recordedIn_record]
    simpa [recordedIn, tokenRecord, hr] using hrec
  · exact Triple.raise fun _ hs => hs
  · exact Triple.raise fun _ hs => hs

theorem records_of_tree {f : Workspace → Except Err Workspace}
    (hf : ∀ s s', f s = .ok s' → s'.file x ⟨.manifest, false⟩ = s.file x ⟨.manifest, false⟩) :
    Keeps (Records x t) (Eff.modify f) :=
  Keeps.modify fun s s' hs hss => hs.congr (hf s s' hss)

/-- No stage changes a token record, but the one that makes it. -/
theorem recorded_stable : StableTree (Records x t) txid where
  manifest := transitionState_records
  json name v hname := by
    refine records_of_frame (T := Of name) (fun s₀ => writeJsonAtomic_keeps fun b => of_self name b)
      (.inr ?_)
    exact fun h => hname (Eq.symm h)
  bytes name b hname := by
    refine records_of_frame (T := Of name) (fun s₀ => writeNew_keeps (of_self name false)) (.inr ?_)
    exact fun h => hname (Eq.symm h)
  tree f := by
    refine records_of_tree ?_
    intro s s' hs
    cases hf : f s.tree with
    | error e =>
      rw [hf] at hs
      cases hs
    | ok w =>
      rw [hf] at hs
      cases hs
      rfl
  place i tp := by
    refine records_of_tree ?_
    intro s s' hs
    split at hs
    · rename_i b hb
      cases hput : s.tree.put tp b with
      | error e =>
        rw [hput] at hs
        cases hs
      | ok w =>
        rw [hput] at hs
        cases hs
        change (s.eraseFile txid ⟨.staged i, false⟩).file x _ = _
        rw [file_eraseFile, if_neg (by simp)]
    · cases hs

end Stable

/-! ## The pipeline -/

section Pipeline

variable {x : String} {t : Val} {plan : Plan} {D : Digest} {handoff : Entries}

variable {txid : String} {operationIds : List Val}

theorem makeTransaction_records {workspaceId handoffId : Val} (hx : x ≠ txid) :
    Keeps (Records x t) (makeTransaction txid workspaceId handoffId operationIds) := by
  have hdir : ∀ name, Keeps (Records x t) (makeDir txid name) := fun name =>
    records_of_frame (T := fun _ => True) (fun s₀ => makeDir_keeps trivial) (.inl hx)
  have hjson : ∀ name v, Keeps (Records x t) (writeJsonAtomic txid name v) := fun name v =>
    records_of_frame (T := fun _ => True) (fun s₀ => writeJsonAtomic_keeps fun _ => trivial)
      (.inl hx)
  refine Keeps.bind ?_ fun _ => (hdir _).bind fun _ => (hdir _).bind fun _ =>
    (hjson _ _).bind fun _ => hjson _ _
  refine records_of_tree ?_
  intro s s' hs
  split at hs
  · cases hs
  · cases hs
    unfold file
    simp [hx]

variable {I : Workspace → Prop}

/-- The store answers `created` only for a directory that was not there; `N` is what follows from
that. -/
theorem createTransactionStore_triple {N : Prop} {workspaceId handoffId : Val}
    (hnew : ∀ s, I s → s.store.contains txid = false → N)
    (hmake : N → Keeps I (makeTransaction txid workspaceId handoffId operationIds)) :
    Triple plan I (createTransactionStore txid workspaceId handoffId operationIds)
      ⟨fun a s => I s ∧ (a.transactionId = txid ∧ (a.status = .created → N)), I, I⟩ := by
  refine Triple.bind (R := fun b s => I s ∧ b = s.store.contains txid) ?_ fun b => ?_
  · refine Triple.query (fun _ hs => hs) (fun _ hs => hs) ?_
    intro s b hs hb
    cases hb
    exact ⟨hs, rfl⟩
  · cases b with
    | true =>
      refine Triple.bind (R := fun _ => I) ?_ fun r => ?_
      · refine (Keeps.query _ |>.attempt plan).conseq (fun _ hs => hs.1) (fun _ _ hs => hs)
          (fun _ hs => hs) fun _ hs => hs
      · cases r with
        | error e => exact Triple.pure fun s hs => ⟨hs, rfl, fun h => by cases h⟩
        | ok m =>
          have hstatus : ∀ b : Bool,
              (if b then StoreStatus.duplicateSuppressed else .invalid) ≠ .created := by decide
          exact Triple.pure fun s hs => ⟨hs, rfl, fun h => absurd h (hstatus _)⟩
    | false =>
      refine Triple.intro fun s₀ hs₀ => ?_
      have hN : N := hnew s₀ hs₀.1 hs₀.2.symm
      refine Triple.conseq (P := I) ?_ ?_ (fun _ _ h => h) (fun _ h => h) fun _ h => h
      · refine Triple.bind ((hmake hN).attempt plan) fun r => ?_
        cases r with
        | error e => exact Triple.pure fun s hs => ⟨hs, rfl, fun _ => hN⟩
        | ok u => exact Triple.pure fun s hs => ⟨hs, rfl, fun _ => hN⟩
      · rintro s rfl
        exact hs₀.1

theorem enterPipeline_records (root : WorkspaceRoot) :
    Triple plan (Records x t) (enterPipeline D root handoff)
      ⟨fun r s => Records x t s ∧ ∀ e, r = .entered e →
          e.store.status = .created → x ≠ e.store.transactionId,
        Records x t, Records x t⟩ := by
  refine (enterPipeline_triple (K := fun txid a _ => a.transactionId = txid ∧
    (a.status = .created → x ≠ txid)) D root handoff ?_).conseq (fun _ hs => hs) ?_
    (fun _ hs => hs) fun _ hs => hs
  · intro txid workspaceId operationIds
    refine createTransactionStore_triple ?_ makeTransaction_records
    rintro s hs hnone rfl
    rw [hs.contains] at hnone
    cases hnone
  · rintro r s ⟨hs, he⟩
    refine ⟨hs, fun e hr hcreated => ?_⟩
    obtain ⟨⟨hid, hne⟩, -⟩ := he e hr
    rw [hid]
    exact hne hcreated

variable {store : StoreArtifact}

/-- Only a new transaction gets a token record. -/
theorem prepareTokenConsumption_records (hx : store.status = .created → x ≠ store.transactionId) :
    Keeps (Records x t) (prepareTokenConsumption handoff store) := by
  refine (Keeps.ofExcept _).bind fun _ => (Keeps.ofExcept _).bind fun _ =>
    (Keeps.ofExcept _).bind fun _ => (Keeps.ofExcept _).bind fun _ => ?_
  dsimp only
  split
  · rename_i hpending
    have hcreated : store.status = .created := by
      unfold tokenStatus at hpending
      split at hpending
      · cases hpending
      · split at hpending
        · rename_i h
          exact h.1
        · cases hpending
    refine Keeps.bind ?_ fun _ => Keeps.pure _
    refine (Keeps.query _).bind fun m => ?_
    exact records_of_frame (T := fun _ => True) (fun s₀ => writeJsonAtomic_keeps fun _ => trivial)
      (.inl (hx hcreated))
  · exact Keeps.pure _

variable {admission : Admission}

/-- What an open gate tells. -/
theorem created_of_gateReasons {ops : List Entries} {pre : Precondition} {p : Prepared}
    (h : gateReasons handoff ops admission pre store p = []) :
    store.status = .created ∧ p.token.status = .pending := by
  simp only [gateReasons, List.append_eq_nil_iff] at h
  obtain ⟨⟨⟨⟨⟨⟨⟨-, -⟩, hstore⟩, -⟩, -⟩, -⟩, htoken⟩, -⟩ := h
  constructor
  · by_contra hne
    rw [if_neg hne] at hstore
    cases hstore
  · by_contra hne
    rw [if_neg hne] at htoken
    cases htoken

theorem authorizeCommit_triple {ops : List Entries} {pre : Precondition} {p : Prepared}
    (hkeep : Keeps I (transitionState store.transactionId "commit_admitted")) :
    Triple plan I (authorizeCommit handoff ops admission pre store p)
      ⟨fun g s => I s ∧ (g.authorized = true → gateReasons handoff ops admission pre store p = []),
        I, I⟩ := by
  unfold authorizeCommit
  dsimp only
  split
  · rename_i hgate
    refine Triple.bind (hkeep plan) fun _ => Triple.pure fun s hs => ⟨hs, fun _ => ?_⟩
    exact List.isEmpty_iff.mp hgate
  · rename_i hgate
    exact Triple.pure fun s hs => ⟨hs, fun h => absurd h hgate⟩

theorem gatePhase_records (D : Digest) (root : WorkspaceRoot) (handoff : Entries) (plan : Plan) :
    Triple plan (Records x t) (gatePhase D root handoff)
      ⟨fun r s => Records x t s ∧ ∀ g, r = .reached g → g.gate.authorized = true →
          x ≠ g.entered.store.transactionId,
        Records x t, Records x t⟩ := by
  refine Triple.bind (enterPipeline_records root) fun r => ?_
  cases r with
  | answered r => exact Triple.pure fun s hs => ⟨hs.1, fun g hg => by cases hg⟩
  | entered e =>
    refine Triple.intro fun s₀ hs₀ => ?_
    have hx := hs₀.2 e rfl
    refine Triple.conseq (P := Records x t) ?_ ?_ (fun _ _ h => h) (fun _ h => h) fun _ h => h
    · refine Triple.bind (R := fun p s => Records x t s ∧
        (p.2.authorized = true → e.store.status = .created)) ?_ fun p => ?_
      · refine Triple.bind (prepareTokenConsumption_records hx plan) fun token => ?_
        have hstable : Stable (Records x t) e.store.transactionId := recorded_stable.toStable
        refine Triple.bind (hstable.manifest _ plan) fun _ => ?_
        refine Triple.bind (hstable.captureBackups _ _ rfl plan) fun backup => ?_
        refine Triple.bind (hstable.stageMutations D _ plan) fun staging => ?_
        refine Triple.bind (authorizeCommit_triple (hstable.manifest _)) fun gate => ?_
        refine Triple.pure fun s hs => ⟨hs.1, fun h => ?_⟩
        exact (created_of_gateReasons (hs.2 h)).1
      · refine Triple.pure fun s hs => ⟨hs.1, fun g hg hauth => ?_⟩
        cases hg
        exact hx (hs.2 hauth)
    · rintro s rfl
      exact hs₀.1

def authorizationTokenId (handoff : Entries) : Val :=
  (getD handoff "authorization_token" (.dict [])).entries |> Val.getIn "token_id"

theorem attr_tokenId {v : Val}
    (h : (getD handoff "authorization_token" (.dict [])).attr "token_id" = .ok v) :
    v = authorizationTokenId handoff := by
  unfold authorizationTokenId
  cases htok : getD handoff "authorization_token" (.dict []) with
  | dict kvs =>
    rw [htok] at h
    cases h
    rfl
  | _ =>
    rw [htok] at h
    cases h

theorem recordPending_triple {tokenId preparationId : Val} :
    Triple plan (fun _ => True) (recordPending txid tokenId preparationId)
      (Post.answers fun _ => Records txid tokenId) := by
  refine Triple.bind (R := fun _ _ => True) ?_ fun m => Triple.intro fun s₀ _ => ?_
  · exact Triple.query (fun _ _ => trivial) (fun _ _ => trivial) fun _ _ _ _ => trivial
  · refine writeJsonAtomic_triple.conseq (fun _ h => h) ?_ (fun _ _ => trivial) fun _ _ => trivial
    rintro - s ⟨-, hfile, -⟩
    change recordedToken s txid = some tokenId
    unfold recordedToken manifestOf
    rw [hfile]
    exact recordedIn_record _ m

theorem prepareTokenConsumption_triple :
    Triple plan (fun _ => True) (prepareTokenConsumption handoff store)
      (Post.answers fun token s => token.authorizationTokenId = authorizationTokenId handoff ∧
        (token.status = .pending →
          Records store.transactionId (authorizationTokenId handoff) s)) := by
  have hread : ∀ x : Except Err Val, Triple plan (fun _ : Workspace => True) (Eff.ofExcept x)
      ⟨fun v _ => x = .ok v, fun _ => True, fun _ => True⟩ := fun x =>
    Triple.ofExcept (fun v hv _ _ => hv) fun _ _ => trivial
  have hany : ∀ (m : Run TokenArtifact) (p : Prop) (Q : Post Workspace TokenArtifact),
      (p → Triple plan (fun _ => True) m Q) → Triple plan (fun _ => p) m Q :=
    fun m p Q h => Triple.intro fun s hs => (h hs).conseq (fun _ _ => trivial) (fun _ _ h => h)
      (fun _ h => h) fun _ h => h
  refine Triple.bind (hread _) fun consumed => hany _ _ _ fun _ => ?_
  refine Triple.bind (hread _) fun prepared => hany _ _ _ fun _ => ?_
  refine Triple.bind (hread _) fun tokenId => hany _ _ _ fun hid => ?_
  refine Triple.bind (hread _) fun preparationId => hany _ _ _ fun _ => ?_
  have hid' := attr_tokenId hid
  subst hid'
  dsimp only
  split
  · exact Triple.bind recordPending_triple fun _ => Triple.pure fun s hs => ⟨rfl, fun _ => hs⟩
  · rename_i hpending
    exact Triple.pure fun s _ => ⟨rfl, fun h => absurd h hpending⟩

theorem transactionId_of_admitted {binding : RootBinding} {a : Admission}
    (h : admitWorkspaceMutationExecutor D binding handoff = .ok a) :
    transactionId D handoff = .ok a.transactionId := by
  obtain ⟨ops, -, h⟩ := bind_eq_ok.mp h
  obtain ⟨rs, -, h⟩ := bind_eq_ok.mp h
  obtain ⟨txid, htxid, h⟩ := bind_eq_ok.mp h
  cases h
  exact htxid

/-- A call that comes through its gate has its token recorded in its own transaction. -/
theorem gatePhase_entered (D : Digest) (root : WorkspaceRoot) (handoff : Entries) (plan : Plan) :
    Triple plan (fun _ => True) (gatePhase D root handoff)
      (Post.answers fun r s => ∀ g, r = .reached g → g.gate.authorized = true →
        transactionId D handoff = .ok g.entered.store.transactionId ∧
          Records g.entered.store.transactionId (authorizationTokenId handoff) s) := by
  have hkeep : ∀ {α : Type} (m : Run α), Keeps (fun _ => True) m := fun m plan n s _ => by
    cases hm : m plan (n, s) with
    | mk out c => cases out <;> trivial
  refine Triple.bind (R := fun r _ => ∀ e, r = .entered e →
    transactionId D handoff = .ok e.store.transactionId) ?_ fun r => ?_
  · refine (enterPipeline_triple (K := fun txid a _ => a.transactionId = txid) D root handoff
      ?_).conseq (fun _ hs => hs) ?_ (fun _ hs => hs) fun _ hs => hs
    · intro txid workspaceId operationIds
      refine (createTransactionStore_triple (N := True) (fun _ _ _ => trivial)
        fun _ => hkeep _).conseq (fun _ hs => hs) ?_ (fun _ hs => hs) fun _ hs => hs
      intro a s hs
      exact ⟨trivial, hs.2.1⟩
    · rintro r s ⟨-, he⟩ e hr
      obtain ⟨hid, binding, hadmit⟩ := he e hr
      rw [hid]
      exact transactionId_of_admitted hadmit
  cases r with
  | answered r => exact Triple.pure fun s hs g hg => by cases hg
  | entered e =>
    refine Triple.intro fun s₀ hs₀ => ?_
    have htxid := hs₀ e rfl
    refine Triple.conseq (P := fun _ => True) ?_ (fun _ _ => trivial) (fun _ _ h => h)
      (fun _ h => h) fun _ h => h
    have hstable : ∀ p : Prop, Stable
        (fun s => p → Records e.store.transactionId (authorizationTokenId handoff) s)
        e.store.transactionId := fun p =>
      { manifest := fun state => Keeps.imp fun _ => recorded_stable.manifest state
        json := fun name v hname => Keeps.imp fun _ => recorded_stable.json name v hname
        bytes := fun name b hname => Keeps.imp fun _ => recorded_stable.bytes name b hname }
    refine Triple.bind (R := fun p s => p.2.authorized = true →
      Records e.store.transactionId (authorizationTokenId handoff) s) ?_ fun p => ?_
    · refine Triple.bind prepareTokenConsumption_triple fun token => ?_
      have h := hstable (token.status = .pending)
      refine Triple.conseq (P := fun s => token.status = .pending →
        Records e.store.transactionId (authorizationTokenId handoff) s) ?_ (fun _ hs => hs.2)
        (fun _ _ h => h) (fun _ h => h) fun _ h => h
      refine Triple.bind ((h.manifest _).answers plan) fun _ => ?_
      refine Triple.bind ((h.captureBackups _ _ rfl).answers plan) fun backup => ?_
      refine Triple.bind ((h.stageMutations D _).answers plan) fun staging => ?_
      refine Triple.bind (authorizeCommit_triple (h.manifest _) |>.conseq (fun _ hs => hs)
        (fun _ _ hs => hs) (fun _ _ => trivial) fun _ _ => trivial) fun gate => ?_
      refine Triple.pure fun s hs hauth => hs.1 ?_
      exact (created_of_gateReasons (hs.2 hauth)).2
    · refine Triple.pure fun s hs g hg hauth => ?_
      cases hg
      exact ⟨htxid, hs hauth⟩

def afterGate (D : Digest) (handoff : Entries) : Phase Gated → Run Report
  | .answered r => pure r
  | .reached g => do
    let commit ← atomicCommit D g.entered.store.transactionId g.entered.ops g.gate
    settle D handoff g commit

theorem executePipeline_eq (root : WorkspaceRoot) : executePipeline D root handoff true =
    gatePhase D root handoff >>= afterGate D handoff := by
  unfold executePipeline commitPhase
  rw [if_pos rfl, Eff.bind_assoc]
  congr 1
  funext r
  cases r with
  | answered r => rfl
  | reached g =>
    rw [Eff.bind_assoc]
    rfl

/-- No call changes a token record that is there. -/
theorem executePipeline_records (D : Digest) (root : WorkspaceRoot) (handoff : Entries) :
    Keeps (Records x t) (executePipeline D root handoff true) := by
  intro plan
  refine Triple.bind (R := fun _ => Records x t) ?_ fun r => ?_
  · refine Triple.bind (R := fun _ => Records x t) ?_ fun r => ?_
    · exact (gatePhase_records D root handoff plan).conseq (fun _ hs => hs) (fun _ _ hs => hs.1) (fun _ hs => hs)
        fun _ hs => hs
    · cases r with
      | answered r => exact Triple.pure fun _ hs => hs
      | reached g =>
        exact Triple.bind (recorded_stable.atomicCommit D _ _ plan) fun _ =>
          Triple.pure fun _ hs => hs
  · cases r with
    | answered r => exact Triple.pure fun _ hs => hs
    | reached c =>
      refine Triple.bind (recorded_stable.settleCommit D _ _ plan) fun _ => ?_
      exact Triple.bind (finalizeTokenConsumption_records plan) fun _ => Triple.pure fun _ hs => hs

end Pipeline

/-! ## Runs of calls -/

/-- A confirmed call of `execute_pipeline`, with the fate of its operations. -/
structure Call where
  handoff : Entries
  plan : Plan

/-- The token the call commits under: the one it brings, when it comes through its gate. -/
def tokenUsed (D : Digest) (root : WorkspaceRoot) (s : Workspace) (c : Call) : Option Val :=
  match gatePhase D root c.handoff c.plan (0, s) with
  | (.done (.reached g), _) =>
    if g.gate.authorized then some (authorizationTokenId c.handoff) else none
  | _ => none

/-- Calls on one workspace, one after another. -/
def calls (D : Digest) (root : WorkspaceRoot) : Machine Workspace Call (Option Val) where
  step s c := (tokenUsed D root s c, (executePipeline D root c.handoff true c.plan (0, s)).2.2)

def tokensOf (outs : List (Call × Option Val)) : List Val := outs.filterMap fun e => e.2

/-- The tokens committed under, in order. -/
def usedTokens (D : Digest) (root : WorkspaceRoot) (s : Workspace) (cs : List Call) : List Val :=
  tokensOf ((calls D root).outputs s cs)

/-- The token the call brings is recorded by no other transaction. -/
def Unshared (D : Digest) (s : Workspace) (c : Call) : Prop :=
  ∀ txid t, recordedToken s txid = some t → t.eq (authorizationTokenId c.handoff) = true →
    transactionId D c.handoff = .ok txid

section Runs

variable {D : Digest} {root : WorkspaceRoot} {s : Workspace} {c : Call} {t : Val}

theorem gate_of_tokenUsed (h : tokenUsed D root s c = some t) :
    ∃ g c', gatePhase D root c.handoff c.plan (0, s) = (.done (.reached g), c') ∧
      g.gate.authorized = true ∧ t = authorizationTokenId c.handoff := by
  unfold tokenUsed at h
  split at h
  · rename_i g c' hrun
    split at h
    · rename_i hauth
      cases h
      exact ⟨g, c', hrun, hauth, rfl⟩
    · cases h
  · cases h

theorem records_of_tokenUsed (h : tokenUsed D root s c = some t) :
    ∃ txid, Records txid t ((calls D root).step s c).2 := by
  obtain ⟨g, c', hrun, hauth, rfl⟩ := gate_of_tokenUsed h
  have hgate := gatePhase_entered D root c.handoff c.plan 0 s trivial
  rw [hrun] at hgate
  obtain ⟨-, hrec⟩ := hgate g rfl hauth
  refine ⟨g.entered.store.transactionId, ?_⟩
  have hrest : Keeps (Records g.entered.store.transactionId (authorizationTokenId c.handoff))
      (afterGate D c.handoff (.reached g)) := by
    refine (recorded_stable.atomicCommit D _ _).bind fun commit => ?_
    refine (recorded_stable.settleCommit D _ _).bind fun _ => ?_
    exact finalizeTokenConsumption_records.bind fun _ => Keeps.pure _
  have hkept := hrest c.plan c'.1 c'.2 hrec
  change Records _ _ (executePipeline D root c.handoff true c.plan (0, s)).2.2
  rw [executePipeline_eq, Eff.bind_of_done hrun]
  cases hout : afterGate D c.handoff (.reached g) c.plan c' with
  | mk out c₁ =>
    rw [hout] at hkept
    cases out <;> exact hkept

theorem records_step {x : String} {t : Val} (h : Records x t s) :
    Records x t ((calls D root).step s c).2 := by
  have hkept := executePipeline_records D root c.handoff c.plan 0 s h
  change Records x t (executePipeline D root c.handoff true c.plan (0, s)).2.2
  cases hout : executePipeline D root c.handoff true c.plan (0, s) with
  | mk out c₁ =>
    rw [hout] at hkept
    cases out <;> exact hkept

/-- A call whose token no other transaction records only commits under a token that none
records: its own transaction is new. -/
theorem unrecorded_of_tokenUsed {x : String} {t' : Val} (hok : Unshared D s c)
    (h : tokenUsed D root s c = some t) (hrec : recordedToken s x = some t') :
    t'.eq t = false := by
  obtain ⟨g, c', hrun, hauth, rfl⟩ := gate_of_tokenUsed h
  cases heq : t'.eq (authorizationTokenId c.handoff) with
  | false => rfl
  | true =>
    have hown := hok x t' hrec heq
    have hentered := gatePhase_entered D root c.handoff c.plan 0 s trivial
    have hrecords := gatePhase_records D root c.handoff c.plan 0 s hrec
    rw [hrun] at hentered hrecords
    obtain ⟨htxid, -⟩ := hentered g rfl hauth
    rw [hown] at htxid
    cases htxid
    exact absurd rfl (hrecords.2 g rfl hauth)

end Runs

/-! ## Runs -/

/-- Every token used is recorded, and no two of them are the same. -/
structure UsedOnce (used : List Val) (s : Workspace) : Prop where
  recorded : ∀ t ∈ used, ∃ txid, Records txid t s
  once : used.Pairwise fun a b => a.eq b = false

theorem usedOnce_step {D : Digest} {root : WorkspaceRoot} {used : List Val} {c : Call}
    (h : UsedOnce used s) (hok : Unshared D s c) :
    UsedOnce (used ++ (tokenUsed D root s c).toList) ((calls D root).step s c).2 := by
  have hkept : ∀ t ∈ used, ∃ txid, Records txid t ((calls D root).step s c).2 := by
    intro t ht
    obtain ⟨txid, hrec⟩ := h.recorded t ht
    exact ⟨txid, records_step hrec⟩
  cases huse : tokenUsed D root s c with
  | none =>
    rw [Option.toList_none, List.append_nil]
    exact ⟨hkept, h.once⟩
  | some t =>
    rw [Option.toList_some]
    constructor
    · intro t' ht'
      rcases List.mem_append.mp ht' with ht' | ht'
      · exact hkept t' ht'
      · cases List.mem_singleton.mp ht'
        exact records_of_tokenUsed huse
    · refine List.pairwise_append.mpr ⟨h.once, List.pairwise_singleton _ _, ?_⟩
      intro a ha b hb
      cases List.mem_singleton.mp hb
      obtain ⟨txid, hrec⟩ := h.recorded a ha
      exact unrecorded_of_tokenUsed hok huse hrec

/-- The status of the commit a call answers with, and how many operations it committed. -/
def committedOf (r : Out Report × (ℕ × Workspace)) : Option (Status × ℕ) :=
  match r.1 with
  | .done report => report.atomicCommit.map fun c => (c.status, c.committedOperationIds.length)
  | _ => none

end Mutation
end ZeroRuntime
