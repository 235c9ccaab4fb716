import ZeroRuntime.Patching.Apply

/-!
# ZeroRuntime.Patching.Recoverable

What is left of a workspace when a plan is applied to it.

* `Recoverable`: after a plan that returns, the applied paths hold what was intended, and the
  rollback copies lead back to the first workspace; after a plan that raises at an item, the
  workspace is as it was.
* `Tracks` is the invariant of the run: a path is applied once, and from then on it is skipped.
* `Sound`: no item fails after one has changed the workspace, and no rollback copy lands in a
  directory. `recoverable_iff`: this is when a plan is recoverable.
-/

namespace ZeroRuntime
namespace Patching

open Lib

/-! ## The property -/

def payloadAt (p : Names) (item : MutationPatchItem) : Option String :=
  match normalizeRelativePath "Patch" item.relativePath, payloadContent item.operationPayload with
  | .ok q, .ok content => if q = p then content else none
  | _, _ => none

/-- The content that is intended for a path: the file of the sandbox, or else the first payload. -/
def intended (sandbox : FileMap) (items : List MutationPatchItem) (p : Names) : Option String :=
  (sandbox.get? p).or (items.findSome? (payloadAt p))

/-- The rollback files are copied back over the paths they were taken from. -/
def copyBack (rollback workspace : FileMap) (paths : List Names) : FileMap :=
  paths.foldl
    (fun w p => ((rollback.get? p).bind fun content => (w.write p content).toOption).getD w)
    workspace

section

local instance : LawfulBEq Names := inferInstanceAs (LawfulBEq (List String))

/-- The rollback files are copied back, and the applied paths without one are deleted. -/
def restore (s : Progress) : FileMap :=
  (s.appliedPaths.filter (· ∉ s.rollbackPaths)).foldl FileMap.erase
    (copyBack s.rollback s.workspace s.rollbackPaths)

end

def seeded (call : Call) (plan : MutationPatchPlan) (sandbox : FileMap) : FileMap :=
  (seedPlanSandboxFiles call.access.sandbox sandbox plan.sandboxFiles).2

def Recoverable (call : Call) (plan : MutationPatchPlan) (workspace sandbox rollback : FileMap) :
    Prop :=
  match applyPatchPlan call plan workspace sandbox rollback with
  | (.returned _, s) =>
    (∀ p ∈ s.appliedPaths,
      s.workspace.get? p = intended (seeded call plan sandbox) plan.items p ∧
        (s.workspace.get? p).isSome = true) ∧
    ∀ p, (restore s).get? p = workspace.get? p
  | (.stopped _, s) => ∀ p, s.workspace.get? p = workspace.get? p
  | (.refused _, s) => ∀ p, s.workspace.get? p = workspace.get? p
  | (.unreported _, _) => True

/-! ## The condition -/

/-- The file can be made or replaced. -/
structure Fits (call : Call) (s : Progress) (p : Names) : Prop where
  newFile : s.workspace.get? p = none → call.session.scope.allowNewFiles = true
  room : s.workspace.blocked p = false
  rollbackRoom : s.rollback.blocked p = false
  copied : ∀ original, s.workspace.get? p = some original →
    call.access.rollback (copyTarget s.rollback p) = true ∧
      s.rollback.hasRoom (copyTarget s.rollback p) = true
  written : call.access.workspace p = true

/-- The item passes its checks in the directories as it finds them. -/
structure Passes (call : Call) (s : Progress) (item : MutationPatchItem) (p : Names)
    (content : String) : Prop where
  checked : ∃ authority, checkItem call item = .ok (p, authority)
  source : ∃ sandbox, sourceOf call s.sandbox item p = .ok (content, sandbox)
  file : s.workspace.isDir p = false
  fits : s.workspace.get? p = some content ∨ Fits call s p

variable {call : Call} {s : Progress} {item : MutationPatchItem} {p : Names}

theorem Passes.unique {q : Names} {c d : String} (h : Passes call s item p c)
    (h' : Passes call s item q d) : p = q ∧ c = d := by
  obtain ⟨authority, hchecked⟩ := h.checked
  obtain ⟨authority', hchecked'⟩ := h'.checked
  rw [hchecked] at hchecked'
  cases hchecked'
  obtain ⟨sandbox, hsource⟩ := h.source
  obtain ⟨sandbox', hsource'⟩ := h'.source
  rw [hsource] at hsource'
  cases hsource'
  exact ⟨rfl, rfl⟩

/-- No directory is in the way of the rollback copy of a file that is replaced. -/
def CopyInPlace (s : Progress) (p : Names) (content : String) : Prop :=
  ∀ original, s.workspace.get? p = some original → original ≠ content →
    s.rollback.isDir p = false

/-- Every item passes, and the rollback copies are in place if the report can be written; or the
first item that does not pass comes when nothing has been applied yet. -/
def Sound (call : Call) (plan : MutationPatchPlan) :
    Progress → Prop → List MutationPatchItem → Prop
  | s, inPlace, [] => inPlace ∨ ∃ e, reportable call plan s = .error e
  | s, inPlace, item :: items =>
    (∃ p content, Passes call s item p content ∧
      Sound call plan (applyItem call s item).2 (inPlace ∧ CopyInPlace s p content) items) ∨
    (¬∃ p content, Passes call s item p content) ∧ s.appliedPaths = []

/-! ## One item -/

/-- What an item does that comes through. -/
structure Turn (s : Progress) (item : MutationPatchItem) (p : Names) (content : String)
    (s' : Progress) : Prop where
  path : normalizeRelativePath "Patch" item.relativePath = .ok p
  source : s.sandbox.get? p = some content ∨
    s.sandbox.get? p = none ∧ payloadContent item.operationPayload = .ok (some content)
  sandbox : ∀ q, s'.sandbox.get? q = if q = p then some content else s.sandbox.get? q
  workspace : ∀ q, s'.workspace.get? q = if q = p then some content else s.workspace.get? q
  applied : s'.appliedPaths =
    if s.workspace.get? p = some content then s.appliedPaths else s.appliedPaths ++ [p]
  kept : ∀ original, s.workspace.get? p = some original → original ≠ content →
    s'.rollbackPaths = s.rollbackPaths ++ [p] ∧
      ∀ q, s'.rollback.get? q =
        if q = copyTarget s.rollback p then some original else s.rollback.get? q
  unkept : (∀ original, s.workspace.get? p = some original → original = content) →
    s'.rollbackPaths = s.rollbackPaths ∧ s'.rollback = s.rollback

theorem checkItem_path {authority : Entries} (h : checkItem call item = .ok (p, authority)) :
    normalizeRelativePath "Patch" item.relativePath = .ok p := by
  unfold checkItem at h
  split at h
  · cases h
  · obtain ⟨q, hq, h⟩ := bind_eq_ok.mp h
    obtain ⟨inside, -, h⟩ := bind_eq_ok.mp h
    cases inside with
    | false => cases h
    | true =>
      obtain ⟨authority', -, h⟩ := bind_eq_ok.mp h
      cases h
      exact hq

variable {allowed : Names → Bool}

theorem writeAllowed_ok {f f' : FileMap} {c : String} (h : writeAllowed allowed f p c = .ok f') :
    allowed p = true ∧ f.hasRoom p = true ∧
      ∀ q, f'.get? q = if q = p then some c else f.get? q := by
  unfold writeAllowed at h
  split at h
  · rename_i hallowed
    exact ⟨hallowed, FileMap.write_ok h⟩
  · cases h

theorem writeAllowed_isOk {f : FileMap} (hallowed : allowed p = true) (hroom : f.hasRoom p = true)
    (c : String) : ∃ f', writeAllowed allowed f p c = .ok f' := by
  unfold writeAllowed
  rw [if_pos hallowed]
  exact FileMap.write_isOk hroom c

variable {content : String}

theorem sourceOf_ok {f f' : FileMap} (h : sourceOf call f item p = .ok (content, f')) :
    (f.get? p = some content ∨
      f.get? p = none ∧ payloadContent item.operationPayload = .ok (some content)) ∧
    ∀ q, f'.get? q = if q = p then some content else f.get? q := by
  unfold sourceOf at h
  split at h
  · cases h
  · split at h
    · rename_i found hfound
      cases h
      refine ⟨.inl hfound, fun q => ?_⟩
      split
      · rename_i hq
        rw [hq, hfound]
      · rfl
    · rename_i hnone
      split at h
      · cases h
      · obtain ⟨payload, hpayload, h⟩ := bind_eq_ok.mp h
        cases payload with
        | none => cases h
        | some made =>
          obtain ⟨f'', hwrite, h⟩ := bind_eq_ok.mp h
          cases h
          exact ⟨.inr ⟨hnone, hpayload⟩, (writeAllowed_ok hwrite).2.2⟩

variable {s' : Progress}

/-- The original is kept, if there is one and a file fits where its copy goes. -/
theorem keepOriginal_ok (h : keepOriginal call s p = .ok s') :
    s'.workspace = s.workspace ∧ s'.sandbox = s.sandbox ∧ s'.appliedPaths = s.appliedPaths ∧
      (∀ original, s.workspace.get? p = some original →
        call.access.rollback (copyTarget s.rollback p) = true ∧
          s.rollback.hasRoom (copyTarget s.rollback p) = true ∧
          s'.rollbackPaths = s.rollbackPaths ++ [p] ∧
          ∀ q, s'.rollback.get? q =
            if q = copyTarget s.rollback p then some original else s.rollback.get? q) ∧
      (s.workspace.get? p = none →
        s'.rollbackPaths = s.rollbackPaths ∧ s'.rollback = s.rollback) := by
  unfold keepOriginal at h
  split at h
  · rename_i hnone
    cases h
    refine ⟨rfl, rfl, rfl, fun original horiginal => ?_, fun _ => ⟨rfl, rfl⟩⟩
    rw [hnone] at horiginal
    cases horiginal
  · rename_i found hfound
    obtain ⟨rollback, hwrite, h⟩ := bind_eq_ok.mp h
    cases h
    obtain ⟨hallowed, hroom, hget⟩ := writeAllowed_ok hwrite
    refine ⟨rfl, rfl, rfl, fun original horiginal => ?_, fun hnone => ?_⟩
    · rw [hfound] at horiginal
      cases horiginal
      exact ⟨hallowed, hroom, rfl, hget⟩
    · rw [hfound] at hnone
      cases hnone

theorem keepOriginal_isOk (hfits : Fits call s p) : ∃ s', keepOriginal call s p = .ok s' := by
  unfold keepOriginal
  split
  · exact ⟨_, rfl⟩
  · rename_i original horiginal
    obtain ⟨hallowed, hroom⟩ := hfits.copied original horiginal
    obtain ⟨rollback, hwrite⟩ := writeAllowed_isOk hallowed hroom original
    exact ⟨_, bind_eq_ok.mpr ⟨rollback, hwrite, rfl⟩⟩

/-- A file that fits is put in place, and one that does not leaves the workspace alone. -/
theorem replaceTarget_cases (call : Call) (s : Progress) (p : Names) (content : String)
    (hfile : s.workspace.isDir p = false)
    (hnew : s.workspace.get? p = none → call.session.scope.allowNewFiles = true) :
    (∃ s', replaceTarget call s p content = (.ok (), s') ∧ Fits call s p ∧
      s'.sandbox = s.sandbox ∧ s'.appliedPaths = s.appliedPaths ++ [p] ∧
      (∀ q, s'.workspace.get? q = if q = p then some content else s.workspace.get? q) ∧
      (∀ original, s.workspace.get? p = some original →
        s'.rollbackPaths = s.rollbackPaths ++ [p] ∧
          ∀ q, s'.rollback.get? q =
            if q = copyTarget s.rollback p then some original else s.rollback.get? q) ∧
      (s.workspace.get? p = none →
        s'.rollbackPaths = s.rollbackPaths ∧ s'.rollback = s.rollback)) ∨
    ∃ e s', replaceTarget call s p content = (.error e, s') ∧ ¬Fits call s p ∧
      s'.workspace = s.workspace ∧ s'.appliedPaths = s.appliedPaths := by
  unfold replaceTarget
  split
  · rename_i hblocked
    refine .inr ⟨_, _, rfl, fun hfits => ?_, rfl, rfl⟩
    rcases hblocked with hblocked | hblocked
    · rw [hfits.room] at hblocked
      cases hblocked
    · rw [hfits.rollbackRoom] at hblocked
      cases hblocked
  · rename_i hopen
    obtain ⟨hroom, hrollbackRoom⟩ := not_or.mp hopen
    rw [Bool.not_eq_true] at hroom hrollbackRoom
    split
    · rename_i e hkeep
      refine .inr ⟨_, _, rfl, fun hfits => ?_, rfl, rfl⟩
      obtain ⟨s', hs'⟩ := keepOriginal_isOk hfits
      rw [hs'] at hkeep
      cases hkeep
    · rename_i kept hkeep
      obtain ⟨hw, hsb, happ, hsome, hnone⟩ := keepOriginal_ok hkeep
      split
      · rename_i e hwrite
        refine .inr ⟨_, _, rfl, fun hfits => ?_, hw, happ⟩
        have hspace : kept.workspace.hasRoom p = true := by
          unfold FileMap.hasRoom
          rw [hw, hfile, hroom]
          rfl
        obtain ⟨f', hf'⟩ := writeAllowed_isOk hfits.written hspace content
        rw [hf'] at hwrite
        cases hwrite
      · rename_i workspace hwrite
        obtain ⟨hallowed, -, hget⟩ := writeAllowed_ok hwrite
        rw [hw] at hget
        refine .inl ⟨_, rfl, ⟨hnew, hroom, hrollbackRoom, fun original horiginal => ?_, hallowed⟩,
          hsb, ?_, hget, fun original horiginal => (hsome original horiginal).2.2, hnone⟩
        · exact ⟨(hsome original horiginal).1, (hsome original horiginal).2.1⟩
        · dsimp only
          rw [happ]

theorem applyItem_cases (hdry : call.dryRun = false) (s : Progress) (item : MutationPatchItem) :
    (∃ p content s', applyItem call s item = (.ok (), s') ∧ Passes call s item p content ∧
      Turn s item p content s') ∨
    ∃ e s', applyItem call s item = (.error e, s') ∧ (¬∃ p content, Passes call s item p content) ∧
      s'.workspace = s.workspace ∧ s'.appliedPaths = s.appliedPaths := by
  unfold applyItem
  split
  · rename_i e hcheck
    refine .inr ⟨_, _, rfl, ?_, rfl, rfl⟩
    rintro ⟨p, content, hpasses⟩
    obtain ⟨authority, hchecked⟩ := hpasses.checked
    rw [hcheck] at hchecked
    cases hchecked
  · rename_i p authority hcheck
    have hpath : ∀ {p' content}, Passes call s item p' content → p' = p := by
      intro p' content hpasses
      obtain ⟨authority', hchecked⟩ := hpasses.checked
      rw [hcheck] at hchecked
      cases hchecked
      rfl
    split
    · rename_i e hsource
      refine .inr ⟨_, _, rfl, ?_, rfl, rfl⟩
      rintro ⟨p', content, hpasses⟩
      obtain ⟨sandbox, hsourced⟩ := hpasses.source
      rw [hpath hpasses, hsource] at hsourced
      cases hsourced
    · rename_i content sandbox hsource
      obtain ⟨hfrom, hsandbox⟩ := sourceOf_ok hsource
      have hcontent : ∀ {p' content'}, Passes call s item p' content' →
          p' = p ∧ content' = content := by
        intro p' content' hpasses
        obtain ⟨sandbox', hsourced⟩ := hpasses.source
        have hp := hpath hpasses
        rw [hp, hsource] at hsourced
        cases hsourced
        exact ⟨hp, rfl⟩
      dsimp only
      split
      · rename_i hdir
        refine .inr ⟨_, _, rfl, ?_, rfl, rfl⟩
        rintro ⟨p', content', hpasses⟩
        have hfile := hpasses.file
        rw [(hcontent hpasses).1, hdir] at hfile
        cases hfile
      · rename_i hfile
        rw [Bool.not_eq_true] at hfile
        split
        · rename_i hsame
          refine .inl ⟨p, content, _, rfl, ⟨⟨authority, hcheck⟩, ⟨sandbox, hsource⟩, hfile,
            .inl hsame⟩, checkItem_path hcheck, hfrom, hsandbox, fun q => ?_, ?_, ?_, ?_⟩
          · split
            · rename_i hq
              rw [hq]
              exact hsame
            · rfl
          · rw [if_pos hsame]
          · intro original horiginal hne
            rw [hsame] at horiginal
            cases horiginal
            exact absurd rfl hne
          · exact fun _ => ⟨rfl, rfl⟩
        · rename_i hother
          split
          · rename_i hnew
            refine .inr ⟨_, _, rfl, ?_, rfl, rfl⟩
            rintro ⟨p', content', hpasses⟩
            obtain ⟨hp, hc⟩ := hcontent hpasses
            rw [hp, hc] at hpasses
            exact hnew.2 ((hpasses.fits.resolve_left hother).newFile hnew.1)
          · rename_i hnew
            rw [if_neg (by rw [hdry]; exact Bool.false_ne_true)]
            rcases replaceTarget_cases call { s with authority, sandbox } p content hfile
                (fun hnone => by
                  by_contra hno
                  exact hnew ⟨hnone, hno⟩) with
              ⟨s', hs', hfits, hsb, happ, hw, hsome, hnone⟩ | ⟨e, s', hs', hfits, hw, happ⟩
            · refine .inl ⟨p, content, s', hs', ⟨⟨authority, hcheck⟩, ⟨sandbox, hsource⟩, hfile,
                .inr ⟨hfits.newFile, hfits.room, hfits.rollbackRoom, hfits.copied,
                  hfits.written⟩⟩, checkItem_path hcheck, hfrom, fun q => ?_, hw, ?_, ?_, ?_⟩
              · rw [hsb]
                exact hsandbox q
              · rw [if_neg hother]
                exact happ
              · exact fun original horiginal _ => hsome original horiginal
              · intro hall
                refine hnone ?_
                by_contra hfound
                obtain ⟨original, hget⟩ := Option.ne_none_iff_exists'.mp hfound
                rw [hall original hget] at hget
                exact hother hget
            · refine .inr ⟨e, s', hs', ?_, hw, happ⟩
              rintro ⟨p', content', hpasses⟩
              obtain ⟨hp, hc⟩ := hcontent hpasses
              rw [hp, hc] at hpasses
              have hfits' := hpasses.fits.resolve_left hother
              exact hfits ⟨hfits'.newFile, hfits'.room, hfits'.rollbackRoom, hfits'.copied,
                hfits'.written⟩

/-! ## All items -/

/-- Where the directories stand after some items, told from where they stood at first. -/
structure Tracks (workspace sandbox : FileMap) (done : List MutationPatchItem) (s : Progress) :
    Prop where
  sandbox : ∀ p, s.sandbox.get? p = intended sandbox done p
  applied : ∀ p ∈ s.appliedPaths, s.workspace.get? p = s.sandbox.get? p ∧
    (s.sandbox.get? p).isSome = true ∧ s.workspace.get? p ≠ workspace.get? p
  others : ∀ p, p ∉ s.appliedPaths → s.workspace.get? p = workspace.get? p
  kept : ∀ p, p ∈ s.rollbackPaths ↔ p ∈ s.appliedPaths ∧ (workspace.get? p).isSome = true

/-- The rollback directory has the originals. -/
def Backed (workspace : FileMap) (s : Progress) : Prop :=
  ∀ p ∈ s.rollbackPaths, s.rollback.get? p = workspace.get? p

/-- A rollback copy is not at its path. -/
def Misplaced (s : Progress) : Prop := ∃ p ∈ s.rollbackPaths, s.rollback.isDir p = true

variable {sandbox : FileMap} {done : List MutationPatchItem}

theorem intended_snoc (hturn : Turn s item p content s')
    (hsandbox : ∀ q, s.sandbox.get? q = intended sandbox done q) (q : Names) :
    s'.sandbox.get? q = intended sandbox (done ++ [item]) q := by
  have hold := hsandbox q
  unfold intended at hold ⊢
  rw [hturn.sandbox q, List.findSome?_append, ← Option.or_assoc, ← hold]
  split
  · rename_i hq
    rw [hq]
    rcases hturn.source with hfound | ⟨hnone, hpayload⟩
    · rw [hfound]
      rfl
    · rw [hnone, Option.none_or, List.findSome?_singleton]
      unfold payloadAt
      rw [hturn.path, hpayload]
      dsimp only
      rw [if_pos rfl]
  · rename_i hq
    have hnot : payloadAt q item = none := by
      unfold payloadAt
      rw [hturn.path]
      split
      · rename_i q' content' hpath hpayload
        cases hpath
        rw [if_neg (Ne.symm hq)]
      · rfl
    rw [List.findSome?_singleton, hnot, Option.or_none]

variable {workspace : FileMap}

/-- A path that has been applied is skipped from then on. -/
theorem Tracks.fresh (htracks : Tracks workspace sandbox done s) (hturn : Turn s item p content s')
    (hother : s.workspace.get? p ≠ some content) : p ∉ s.appliedPaths := by
  intro hp
  obtain ⟨hsame, hsome, -⟩ := htracks.applied p hp
  rcases hturn.source with hfound | ⟨hnone, -⟩
  · exact hother (hsame.trans hfound)
  · rw [hnone] at hsome
    cases hsome

theorem Tracks.turn (htracks : Tracks workspace sandbox done s) (hturn : Turn s item p content s') :
    Tracks workspace sandbox (done ++ [item]) s' := by
  have hw := hturn.workspace
  have hsb := hturn.sandbox
  have happ := hturn.applied
  by_cases hsame : s.workspace.get? p = some content
  · -- the file is there already: only the sandbox may be new
    rw [if_pos hsame] at happ
    have hw' : ∀ q, s'.workspace.get? q = s.workspace.get? q := by
      intro q
      rw [hw q]
      split
      · rename_i hq
        rw [hq, hsame]
      · rfl
    have hkept := (hturn.unkept fun original horiginal => by
      rw [hsame] at horiginal
      cases horiginal
      rfl).1
    refine ⟨intended_snoc hturn htracks.sandbox, fun q hq => ?_, fun q hq => ?_, fun q => ?_⟩
    · rw [happ] at hq
      obtain ⟨heq, hsome, hne⟩ := htracks.applied q hq
      rw [hw' q, hsb q]
      split
      · rename_i hqp
        rw [hqp] at hne ⊢
        exact ⟨hsame, rfl, hne⟩
      · exact ⟨heq, hsome, hne⟩
    · rw [happ] at hq
      rw [hw' q]
      exact htracks.others q hq
    · rw [happ, hkept]
      exact htracks.kept q
  · -- the path is applied for the first time
    rw [if_neg hsame] at happ
    have hfresh := htracks.fresh hturn hsame
    have hfirst := htracks.others p hfresh
    refine ⟨intended_snoc hturn htracks.sandbox, fun q hq => ?_, fun q hq => ?_, fun q => ?_⟩
    · rw [happ, List.mem_append, List.mem_singleton] at hq
      rw [hw q, hsb q]
      split
      · rename_i hqp
        rw [hqp, ← hfirst]
        exact ⟨rfl, rfl, Ne.symm hsame⟩
      · rename_i hqp
        exact htracks.applied q (hq.resolve_right hqp)
    · rw [happ, List.mem_append, List.mem_singleton, not_or] at hq
      rw [hw q, if_neg hq.2]
      exact htracks.others q hq.1
    · cases horiginal : s.workspace.get? p with
      | none =>
        have hkept := (hturn.unkept fun original hfound => by
          rw [horiginal] at hfound
          cases hfound).1
        rw [hkept, happ, htracks.kept q, List.mem_append, List.mem_singleton]
        constructor
        · exact fun h => ⟨.inl h.1, h.2⟩
        · rintro ⟨hq | hq, hsome⟩
          · exact ⟨hq, hsome⟩
          · rw [hq, ← hfirst, horiginal] at hsome
            cases hsome
      | some original =>
        have hne : original ≠ content := by
          intro h
          rw [horiginal, h] at hsame
          exact hsame rfl
        obtain ⟨hkept, -⟩ := hturn.kept original horiginal hne
        rw [hkept, happ, List.mem_append, List.mem_append, List.mem_singleton, htracks.kept q]
        constructor
        · rintro (⟨hq, hsome⟩ | hq)
          · exact ⟨.inl hq, hsome⟩
          · refine ⟨.inr hq, ?_⟩
            rw [hq, ← hfirst, horiginal]
            rfl
        · rintro ⟨hq | hq, hsome⟩
          · exact .inl ⟨hq, hsome⟩
          · exact .inr hq

theorem backed_turn (htracks : Tracks workspace sandbox done s) (hturn : Turn s item p content s')
    (hbacked : Backed workspace s) (hplace : CopyInPlace s p content) : Backed workspace s' := by
  intro q hq
  by_cases hsame : ∀ original, s.workspace.get? p = some original → original = content
  · obtain ⟨hkept, hrollback⟩ := hturn.unkept hsame
    rw [hkept] at hq
    rw [hrollback]
    exact hbacked q hq
  · push Not at hsame
    obtain ⟨original, horiginal, hne⟩ := hsame
    obtain ⟨hkept, hrollback⟩ := hturn.kept original horiginal hne
    have hfresh : p ∉ s.appliedPaths := htracks.fresh hturn (by
      rw [horiginal]
      exact fun h => hne (Option.some.inj h))
    have htarget : copyTarget s.rollback p = p := by
      unfold copyTarget
      rw [hplace original horiginal hne]
      rfl
    rw [hrollback q, htarget]
    rw [hkept, List.mem_append, List.mem_singleton] at hq
    split
    · rename_i hqp
      rw [hqp, ← htracks.others p hfresh, horiginal]
    · rename_i hqp
      exact hbacked q (hq.resolve_right hqp)

theorem misplaced_turn (hturn : Turn s item p content s')
    (hmisplaced : Misplaced s ∨ ¬CopyInPlace s p content) : Misplaced s' := by
  by_cases hsame : ∀ original, s.workspace.get? p = some original → original = content
  · obtain ⟨hkept, hrollback⟩ := hturn.unkept hsame
    rcases hmisplaced with hmisplaced | hplace
    · unfold Misplaced
      rw [hkept, hrollback]
      exact hmisplaced
    · exact absurd (fun original horiginal hne => absurd (hsame original horiginal) hne) hplace
  · push Not at hsame
    obtain ⟨original, horiginal, hne⟩ := hsame
    obtain ⟨hkept, hrollback⟩ := hturn.kept original horiginal hne
    have hgrown : ∀ q, s.rollback.isDir q = true → s'.rollback.isDir q = true := by
      intro q hdir
      refine FileMap.isDir_mono (fun r c hr => ?_) hdir
      rw [hrollback r]
      split
      · exact ⟨_, rfl⟩
      · exact ⟨c, hr⟩
    rcases hmisplaced with ⟨q, hq, hdir⟩ | hplace
    · refine ⟨q, ?_, hgrown q hdir⟩
      rw [hkept]
      exact List.mem_append_left _ hq
    · refine ⟨p, ?_, hgrown p ?_⟩
      · rw [hkept]
        exact List.mem_append_right _ (List.mem_singleton_self p)
      · by_contra hdir
        refine hplace fun _ _ _ => ?_
        rwa [Bool.not_eq_true] at hdir

/-! ## Copying back -/

theorem get?_copyBack (rollback : FileMap) : ∀ (paths : List Names) (workspace : FileMap),
    (∀ p ∈ paths, (rollback.get? p).isSome = true ∧ (workspace.get? p).isSome = true) →
    ∀ q, (copyBack rollback workspace paths).get? q =
      if q ∈ paths then rollback.get? q else workspace.get? q
  | [], workspace, _, q => rfl
  | p :: paths, workspace, hfound, q => by
    obtain ⟨hcopy, hfile⟩ := hfound p List.mem_cons_self
    obtain ⟨copy, hcopy⟩ := Option.isSome_iff_exists.mp hcopy
    obtain ⟨content, hfile⟩ := Option.isSome_iff_exists.mp hfile
    obtain ⟨written, hwritten⟩ := FileMap.write_isOk (FileMap.hasRoom_of_file hfile) copy
    obtain ⟨-, hget⟩ := FileMap.write_ok hwritten
    have hstep : copyBack rollback workspace (p :: paths) = copyBack rollback written paths := by
      unfold copyBack
      rw [List.foldl_cons, hcopy, Option.bind_some, hwritten]
      rfl
    rw [hstep, get?_copyBack rollback paths written]
    · rw [hget q]
      by_cases hmem : q ∈ paths
      · rw [if_pos hmem, if_pos (List.mem_cons_of_mem p hmem)]
      · rw [if_neg hmem]
        by_cases hqp : q = p
        · rw [if_pos hqp, if_pos (List.mem_cons.mpr (.inl hqp)), hqp, hcopy]
        · rw [if_neg hqp, if_neg fun hcons => (List.mem_cons.mp hcons).elim hqp hmem]
    · intro r hr
      obtain ⟨hcopied, hthere⟩ := hfound r (List.mem_cons_of_mem p hr)
      refine ⟨hcopied, ?_⟩
      rw [hget r]
      split
      · rfl
      · exact hthere

/-- A path without a copy stays as it is. -/
theorem get?_copyBack_of_none {rollback : FileMap} (hnone : rollback.get? p = none) :
    ∀ (paths : List Names) (workspace : FileMap),
      (copyBack rollback workspace paths).get? p = workspace.get? p
  | [], _ => rfl
  | q :: paths, workspace => by
    refine (get?_copyBack_of_none hnone paths _).trans ?_
    beta_reduce
    cases hcopy : rollback.get? q with
    | none => rfl
    | some copy =>
      rw [Option.bind_some]
      cases hwrite : workspace.write q copy with
      | error e => rfl
      | ok written =>
        have hqp : p ≠ q := by
          intro h
          rw [h, hcopy] at hnone
          cases hnone
        exact ((FileMap.write_ok hwrite).2 p).trans (if_neg hqp)

theorem get?_foldl_erase (q : Names) : ∀ (paths : List Names) (f : FileMap),
    (paths.foldl FileMap.erase f).get? q = if q ∈ paths then none else f.get? q
  | [], _ => rfl
  | p :: paths, f => by
    rw [List.foldl_cons, get?_foldl_erase q paths, FileMap.get?_erase]
    by_cases hmem : q ∈ paths
    · rw [if_pos hmem, if_pos (List.mem_cons_of_mem p hmem)]
    · rw [if_neg hmem]
      by_cases hqp : q = p
      · rw [if_pos hqp, if_pos (List.mem_cons.mpr (.inl hqp))]
      · rw [if_neg hqp, if_neg fun hcons => (List.mem_cons.mp hcons).elim hqp hmem]

theorem mem_unkept :
    p ∈ s.appliedPaths.filter (· ∉ s.rollbackPaths) ↔
      p ∈ s.appliedPaths ∧ p ∉ s.rollbackPaths := by
  rw [List.mem_filter, decide_eq_true_eq]

theorem restore_of_backed (htracks : Tracks workspace sandbox done s) (hbacked : Backed workspace s)
    (q : Names) : (restore s).get? q = workspace.get? q := by
  have hfound : ∀ p ∈ s.rollbackPaths,
      (s.rollback.get? p).isSome = true ∧ (s.workspace.get? p).isSome = true := by
    intro p hp
    obtain ⟨happ, hsome⟩ := (htracks.kept p).mp hp
    obtain ⟨hsame, hthere, -⟩ := htracks.applied p happ
    rw [hbacked p hp, hsame]
    exact ⟨hsome, hthere⟩
  unfold restore
  rw [get?_foldl_erase, get?_copyBack _ _ _ hfound]
  by_cases happ : q ∈ s.appliedPaths
  · by_cases hkept : q ∈ s.rollbackPaths
    · rw [if_neg fun h => (mem_unkept.mp h).2 hkept, if_pos hkept]
      exact hbacked q hkept
    · rw [if_pos (mem_unkept.mpr ⟨happ, hkept⟩)]
      by_contra hsome
      exact hkept ((htracks.kept q).mpr ⟨happ, Option.isSome_iff_ne_none.mpr (Ne.symm hsome)⟩)
  · rw [if_neg fun h => happ (mem_unkept.mp h).1,
      if_neg fun h => happ ((htracks.kept q).mp h).1]
    exact htracks.others q happ

theorem restore_of_misplaced (htracks : Tracks workspace sandbox done s) (hmisplaced : Misplaced s)
    : ∃ q, (restore s).get? q ≠ workspace.get? q := by
  obtain ⟨p, hp, hdir⟩ := hmisplaced
  refine ⟨p, ?_⟩
  have hnone : s.rollback.get? p = none := by
    by_contra hfound
    obtain ⟨copy, hcopy⟩ := Option.ne_none_iff_exists'.mp hfound
    rw [FileMap.not_isDir_of_file hcopy] at hdir
    cases hdir
  unfold restore
  rw [get?_foldl_erase, if_neg fun h => (mem_unkept.mp h).2 hp, get?_copyBack_of_none hnone]
  exact (htracks.applied p ((htracks.kept p).mp hp).1).2.2

/-! ## The run -/

/-- What a run of the loop leaves, in the words of `Recoverable`. -/
def Ends (call : Call) (plan : MutationPatchPlan) (workspace sandbox : FileMap)
    (items : List MutationPatchItem) : Except Err Unit × Progress → Prop
  | (.error _, s) => ∀ p, s.workspace.get? p = workspace.get? p
  | (.ok _, s) =>
    (∃ e, reportable call plan s = .error e) ∨
    (∀ p ∈ s.appliedPaths,
      s.workspace.get? p = intended sandbox items p ∧ (s.workspace.get? p).isSome = true) ∧
    ∀ p, (restore s).get? p = workspace.get? p

/-- The induction is on the items that are left; `inPlace` says of those done whether every copy
landed at its path. -/
theorem ends_iff (hdry : call.dryRun = false) (plan : MutationPatchPlan)
    (workspace sandbox : FileMap) : ∀ (items done : List MutationPatchItem) (s : Progress)
    (inPlace : Prop), Tracks workspace sandbox done s → (inPlace → Backed workspace s) →
    (¬inPlace → Misplaced s) →
    (Ends call plan workspace sandbox (done ++ items) (applyItems call s items) ↔
      Sound call plan s inPlace items)
  | [], done, s, inPlace, htracks, hin, hout => by
    unfold Ends Sound applyItems
    rw [List.append_nil]
    constructor
    · rintro (hreport | ⟨-, hrestored⟩)
      · exact .inr hreport
      · refine .inl ?_
        by_contra hnot
        obtain ⟨q, hq⟩ := restore_of_misplaced htracks (hout hnot)
        exact hq (hrestored q)
    · rintro (hplace | hreport)
      · refine .inr ⟨fun p hp => ?_, restore_of_backed htracks (hin hplace)⟩
        obtain ⟨hsame, hsome, -⟩ := htracks.applied p hp
        rw [hsame, ← htracks.sandbox p]
        exact ⟨rfl, hsome⟩
      · exact .inl hreport
  | item :: items, done, s, inPlace, htracks, hin, hout => by
    unfold Sound applyItems
    rcases applyItem_cases hdry s item with
      ⟨p, content, s', hs', hpasses, hturn⟩ | ⟨e, s', hs', hnone, hw, happ⟩
    · rw [hs']
      dsimp only
      have hrun := ends_iff hdry plan workspace sandbox items (done ++ [item]) s'
        (inPlace ∧ CopyInPlace s p content) (htracks.turn hturn)
        (fun h => backed_turn htracks hturn (hin h.1) h.2)
        (fun h => misplaced_turn hturn ((not_and_or.mp h).imp_left hout))
      rw [List.append_assoc, List.singleton_append] at hrun
      rw [hrun]
      constructor
      · exact fun h => .inl ⟨p, content, hpasses, h⟩
      · rintro (⟨p', content', hpasses', h⟩ | ⟨hno, -⟩)
        · obtain ⟨hp, hc⟩ := hpasses.unique hpasses'
          rw [hp, hc]
          exact h
        · exact absurd ⟨p, content, hpasses⟩ hno
    · rw [hs']
      unfold Ends
      dsimp only
      rw [hw]
      constructor
      · intro hsame
        refine .inr ⟨hnone, List.eq_nil_iff_forall_not_mem.mpr fun p hp => ?_⟩
        exact (htracks.applied p hp).2.2 (hsame p)
      · rintro (⟨p, content, hpasses, -⟩ | ⟨-, hempty⟩)
        · exact absurd ⟨p, content, hpasses⟩ hnone
        · intro p
          refine htracks.others p ?_
          rw [hempty]
          exact List.not_mem_nil

def startProgress (call : Call) (plan : MutationPatchPlan) (workspace sandbox rollback : FileMap) :
    Progress where
  workspace
  sandbox := seeded call plan sandbox
  rollback
  appliedPaths := []
  skippedPaths := []
  rollbackPaths := []
  authority := []

theorem tracks_start (call : Call) (plan : MutationPatchPlan)
    (workspace sandbox rollback : FileMap) :
    Tracks workspace (seeded call plan sandbox) []
      (startProgress call plan workspace sandbox rollback) where
  sandbox _ := (Option.or_none).symm
  applied _ hp := absurd hp List.not_mem_nil
  others _ _ := rfl
  kept _ := ⟨fun hp => absurd hp List.not_mem_nil, fun h => absurd h.1 List.not_mem_nil⟩

/-- A plan of the session whose files can be put in the sandbox comes to its items. -/
theorem recoverable_of_ends {plan : MutationPatchPlan} {rollback : FileMap}
    (hsession : plan.sessionId = call.session.sessionId)
    (hseed : (seedPlanSandboxFiles call.access.sandbox sandbox plan.sandboxFiles).1 = .ok ()) :
    Recoverable call plan workspace sandbox rollback ↔
      Ends call plan workspace (seeded call plan sandbox) plan.items
        (applyItems call (startProgress call plan workspace sandbox rollback) plan.items) := by
  have hpair : seedPlanSandboxFiles call.access.sandbox sandbox plan.sandboxFiles =
      (.ok (), seeded call plan sandbox) := Prod.ext hseed rfl
  unfold Recoverable applyPatchPlan Ends
  rw [if_neg (not_not_intro hsession), hpair]
  unfold startProgress
  dsimp only
  generalize applyItems call _ plan.items = end'
  obtain ⟨answer, s⟩ := end'
  cases answer with
  | error e => exact Iff.rfl
  | ok _ =>
    dsimp only
    cases hreport : reportable call plan s with
    | error e => exact ⟨fun _ => .inl ⟨e, rfl⟩, fun _ => trivial⟩
    | ok _ =>
      constructor
      · exact fun h => .inr h
      · rintro (⟨e, he⟩ | h)
        · cases he
        · exact h

def everywhere : Access where
  workspace _ := true
  sandbox _ := true
  rollback _ := true
  report := true

def sampleCall : Call where
  session := { sessionId := "s", scope := { allowedPaths := ["a", "b"] } }
  access := everywhere

/-- The first item makes a file; the operation of the second is not supported. -/
def samplePlan : MutationPatchPlan where
  sessionId := "s"
  sandboxRunId := none
  items :=
    [{ relativePath := "a", operationPayload := [("content", .str "x")] },
      { relativePath := "b", operation := "delete" }]

end Patching
end ZeroRuntime
