import ZeroRuntime.AtomicEdit.Session

/-!
# ZeroRuntime.AtomicEdit.AllOrNothing

When an edit session is all or nothing, whatever operations fail.

* `backupNames` are the names the backups get, one after another, on a disk. What stands elsewhere is
  not touched before the first write (`Backing.kept`).
* `Safe` is what `rollback` relies on: the backup of a file that was there holds what stood in it. It
  is kept by every write to a path that was there before (`safe_writeAll`), and by the rollback.
* A path that was not there gets an empty backup, and nothing ever removes a file: `Returnable` says
  that there is no such path among those staged.
-/

namespace ZeroRuntime
namespace AtomicEdit

open Lib Disk

/-! ## Names for backups -/

theorem toString_injective : Function.Injective (toString : ℕ → String) := by
  intro m n h
  have hdigits : Nat.toDigits 10 m = Nat.toDigits 10 n := by
    have hlist := congrArg String.toList h
    change (Nat.repr m).toList = (Nat.repr n).toList at hlist
    rw [Nat.repr_eq_ofList_toDigits, Nat.repr_eq_ofList_toDigits, String.toList_ofList,
      String.toList_ofList] at hlist
    exact hlist
  have hvalue := congrArg (fun cs => Nat.ofDigitChars 10 cs 0) hdigits
  rwa [Nat.ofDigitChars_toDigits (by decide) (by decide),
    Nat.ofDigitChars_toDigits (by decide) (by decide)] at hvalue

theorem candidate_injective (backupPath : String) : Function.Injective (candidate backupPath) := by
  have hne : ∀ n, candidate backupPath 0 ≠ candidate backupPath (n + 1) := by
    intro n h
    have hlength := congrArg String.length h
    simp only [candidate, String.length_append] at hlength
    have hunder : "_".length = 1 := rfl
    omega
  intro m n h
  cases m with
  | zero =>
    cases n with
    | zero => rfl
    | succ n => exact absurd h (hne n)
  | succ m =>
    cases n with
    | zero => exact absurd h.symm (hne m)
    | succ n =>
      simp only [candidate, String.append_assoc, String.append_right_inj] at h
      have hnumber := toString_injective h
      omega

theorem candidate_ne_empty (suffix path : String) (n : ℕ) :
    candidate (backupPathOf suffix path) n ≠ "" := by
  have hbase : 0 < (backupPathOf suffix path).length := by
    have hmark : ".bak_".length = 5 := rfl
    simp only [backupPathOf, String.length_append]
    omega
  intro h
  have hlength := congrArg String.length h
  cases n with
  | zero =>
    rw [candidate] at hlength
    exact absurd hlength (Nat.ne_of_gt hbase)
  | succ n =>
    simp only [candidate, String.length_append] at hlength
    have hempty : "".length = 0 := rfl
    omega

theorem backupName_ne_empty (suffix path : String) (d : Disk UInt8) :
    backupName suffix path d ≠ "" := by
  obtain ⟨n, hn⟩ := freeName_eq (candidate (backupPathOf suffix path)) d
  rw [backupName, hn]
  exact candidate_ne_empty suffix path n

theorem backupName_free (suffix path : String) (d : Disk UInt8) :
    ¬Present d (backupName suffix path d) :=
  freeName_free (candidate_injective _) d

/-- The names that backups of these paths get, one after another. -/
def backupNames (suffix : String) : List String → Disk UInt8 → List String
  | [], _ => []
  | path :: paths, d =>
    let name := backupName suffix path d
    name :: backupNames suffix paths (d.set name [])

theorem backupNames_congr {suffix : String} (paths : List String) :
    ∀ {d d' : Disk UInt8}, (∀ q, Present d q ↔ Present d' q) →
      backupNames suffix paths d = backupNames suffix paths d' := by
  induction paths with
  | nil => exact fun _ => rfl
  | cons path paths ih =>
    intro d d' h
    have hname : backupName suffix path d = backupName suffix path d' := freeName_congr h
    rw [backupNames, backupNames, hname]
    refine congrArg _ (ih fun q => ?_)
    rw [present_set_iff, present_set_iff, h]

theorem backupNames_free {suffix : String} (paths : List String) :
    ∀ {d : Disk UInt8} {q : String}, q ∈ backupNames suffix paths d → ¬Present d q := by
  induction paths with
  | nil =>
    intro d q h
    cases h
  | cons path paths ih =>
    intro d q h
    rcases List.mem_cons.mp h with rfl | h
    · exact backupName_free suffix path d
    · exact fun hq => ih h (present_set_iff.mpr (Or.inr hq))

/-! ## The first loop -/

/-- The record as it was staged. -/
def AtomicEditRecord.unbacked (r : AtomicEditRecord) : AtomicEditRecord :=
  { r with backupPath := "" }

def changedPaths (records : List AtomicEditRecord) : List String :=
  (records.filter (·.changed)).map (·.path)

def takenNames (session : AtomicEditSession) (d : Disk UInt8) : List String :=
  backupNames session.backupSuffix (changedPaths session.records) d

/-- The backup of a record has what stood in the file, if there was one. -/
structure Saved (d₀ d : Disk UInt8) (r : AtomicEditRecord) : Prop where
  changed : r.changed = true
  new : ¬Present d₀ r.backupPath
  content : ∀ content, d₀.get? r.path = some content → d.get? r.backupPath = some content

/-- What a rollback relies on. -/
structure Safe (staged : List AtomicEditRecord) (names : List String) (d₀ : Disk UInt8)
    (s : State) : Prop where
  same : s.1.session.records.map AtomicEditRecord.unbacked = staged
  saved : ∀ r ∈ s.1.session.records, r.backupPath ≠ "" → Saved d₀ s.2 r
  kept : ∀ q, q ∉ names →
    s.2.get? q = d₀.get? q ∨ ∃ r ∈ s.1.session.records, r.backupPath ≠ "" ∧ r.path = q

/-- During the first loop, with the records before done. -/
structure Backing (staged : List AtomicEditRecord) (names : List String) (suffix : String)
    (d₀ : Disk UInt8) (before rest : List AtomicEditRecord) (s : State) : Prop where
  records : s.1.session.records = before ++ rest
  suffix_eq : s.1.session.backupSuffix = suffix
  same : (before ++ rest).map AtomicEditRecord.unbacked = staged
  fresh : ∀ r ∈ rest, r.backupPath = ""
  backed : ∀ r ∈ before, r.changed = true → r.backupPath ≠ ""
  saved : ∀ r ∈ before, r.backupPath ≠ "" → Saved d₀ s.2 r
  kept : ∀ q, q ∉ names → s.2.get? q = d₀.get? q
  named : ∃ done, names = done ++ backupNames suffix (changedPaths rest) s.2 ∧
    ∀ q ∈ done, Present s.2 q

section Run

variable {plan : Plan} {staged before rest : List AtomicEditRecord} {record : AtomicEditRecord}
variable {names : List String} {suffix : String} {d₀ d : Disk UInt8} {s : State}

variable {r : AtomicEditRecord}

variable {path : String}

theorem Saved.changedAt {d' : Disk UInt8} (h : Saved d₀ d r) (hd : ChangedAt path d d')
    (hne : Present d r.backupPath → r.backupPath ≠ path) : Saved d₀ d' r := by
  refine ⟨h.changed, h.new, fun content hcontent => ?_⟩
  have hbackup := h.content content hcontent
  rw [hd _ (hne ⟨content, hbackup⟩), hbackup]

theorem Backing.safe (h : Backing staged names suffix d₀ before rest s) :
    Safe staged names d₀ s := by
  refine ⟨h.records ▸ h.same, fun r hr hbackup => ?_, fun q hq => Or.inl (h.kept q hq)⟩
  rw [h.records] at hr
  rcases List.mem_append.mp hr with hr | hr
  · exact h.saved r hr hbackup
  · exact absurd (h.fresh r hr) hbackup

theorem changedPaths_cons (hchanged : record.changed = true) :
    changedPaths (record :: rest) = record.path :: changedPaths rest := by
  rw [changedPaths, List.filter_cons_of_pos hchanged]
  rfl

theorem Backing.mem_names (h : Backing staged names suffix d₀ before (record :: rest) s)
    (hchanged : record.changed = true) : backupName suffix record.path s.2 ∈ names := by
  obtain ⟨done, hnames, -⟩ := h.named
  rw [hnames, changedPaths_cons hchanged]
  exact List.mem_append_right _ List.mem_cons_self

/-- A backup that failed leaves something only under its own name. -/
theorem Backing.torn (h : Backing staged names suffix d₀ before (record :: rest) s)
    (hchanged : record.changed = true)
    (hd : ChangedAt (backupName suffix record.path s.2) s.2 d) : Safe staged names d₀ (s.1, d) := by
  have hsafe := h.safe
  refine ⟨hsafe.same, fun r hr hbackup => ?_, fun q hq => Or.inl ?_⟩
  · refine (hsafe.saved r hr hbackup).changedAt hd fun hpresent heq => ?_
    exact backupName_free suffix record.path s.2 (heq ▸ hpresent)
  · have hne : q ≠ backupName suffix record.path s.2 := fun heq => hq (heq ▸ h.mem_names hchanged)
    exact (hd q hne).trans (h.kept q hq)

theorem Backing.next (h : Backing staged names suffix d₀ before (record :: rest) s)
    (hchanged : record.changed = true) {backup : String}
    (hname : backup = backupName suffix record.path s.2) (hfree : ∀ q ∈ names, ¬Present d₀ q)
    (hd : ChangedAt backup s.2 d) (hcopy : d.get? backup = some ((s.2.get? record.path).getD [])) :
    Backing staged names suffix d₀ (before ++ [{ record with backupPath := backup }]) rest
      (setBackup before rest { record with backupPath := backup } (s.1, d)) := by
  have hsafe := h.torn hchanged (hname ▸ hd)
  have hmem : backup ∈ names := hname ▸ h.mem_names hchanged
  refine ⟨?_, h.suffix_eq, ?_, ?_, ?_, ?_, ?_, ?_⟩
  · rw [List.append_assoc]
    rfl
  · rw [← h.same, List.append_assoc]
    simp only [List.map_append]
    rfl
  · exact fun r hr => h.fresh r (List.mem_cons_of_mem record hr)
  · intro r hr hr'
    rcases List.mem_append.mp hr with hr | hr
    · exact h.backed r hr hr'
    · rw [List.mem_singleton.mp hr, hname]
      exact backupName_ne_empty suffix record.path s.2
  · intro r hr hr'
    rcases List.mem_append.mp hr with hr | hr
    · exact hsafe.saved r (h.records ▸ List.mem_append_left _ hr) hr'
    · rw [List.mem_singleton.mp hr]
      refine ⟨hchanged, hfree backup hmem, fun content hcontent => ?_⟩
      -- the file is still as it was, since no backup has its name
      have hfile : s.2.get? record.path = some content := by
        rw [← hcontent]
        exact h.kept record.path fun hpath => hfree _ hpath ⟨content, hcontent⟩
      exact hcopy.trans (by rw [hfile]; rfl)
  · intro q hq
    have hne : q ≠ backup := fun heq => hq (heq ▸ hmem)
    exact (hd q hne).trans (h.kept q hq)
  · obtain ⟨done, hnames, hdone⟩ := h.named
    rw [changedPaths_cons hchanged, backupNames, ← hname] at hnames
    have hpresent : ∀ q, Present d q ↔ q = backup ∨ Present s.2 q := by
      intro q
      by_cases hq : q = backup
      · exact ⟨fun _ => Or.inl hq, fun _ => ⟨_, hq ▸ hcopy⟩⟩
      · unfold Present
        rw [hd q hq]
        exact ⟨Or.inr, fun hor => hor.resolve_left hq⟩
    refine ⟨done ++ [backup], ?_, fun q hq => (hpresent q).mpr ?_⟩
    · rw [hnames, List.append_assoc, List.singleton_append]
      refine congrArg _ (congrArg _ (backupNames_congr _ fun q => ?_))
      rw [present_set_iff]
      exact (hpresent q).symm
    · rcases List.mem_append.mp hq with hq | hq
      · exact Or.inr (hdone q hq)
      · exact Or.inl (List.mem_singleton.mp hq)

/-- The postcondition of a program after which a rollback may follow. -/
def safely {α : Type} (staged : List AtomicEditRecord) (names : List String) (d₀ : Disk UInt8)
    (R : α → State → Prop) : Post State α :=
  ⟨R, Safe staged names d₀, fun _ => True⟩

theorem copyOrEmpty_spec {backup : String} :
    Triple plan (fun d' => d' = d) (copyOrEmpty path backup d)
      (onlyAt backup d fun _ d' => d'.get? backup = some ((d.get? path).getD [])) := by
  unfold copyOrEmpty
  split
  · rename_i hpresent
    obtain ⟨content, hcontent⟩ := Dict.contains_iff.mp hpresent
    rw [hcontent]
    exact copyFile_spec hcontent
  · rename_i hpresent
    have hnone : d.get? path = none := get?_eq_none_iff.mpr fun h =>
      hpresent (contains_iff_present.mpr h)
    rw [hnone]
    refine (writeFile_spec []).conseq ?_ (fun _ _ h => h) (fun _ h => h) fun _ h => h
    rintro d' rfl
    exact ChangedAt.refl backup d'

theorem keeps_makeParent {I : State → Prop} (path : String) :
    Keeps I (Eff.onSecond (makeParent path)) := by
  refine Keeps.onSecond fun m => ?_
  unfold makeParent
  split
  · exact keeps_touch
  · exact Keeps.pure ()

theorem backUp_spec (hchanged : record.changed = true) (hfree : ∀ q ∈ names, ¬Present d₀ q) :
    Triple plan (Backing staged names suffix d₀ before (record :: rest)) (backUp record)
      (safely staged names d₀ fun backup s =>
        Backing staged names suffix d₀ (before ++ [{ record with backupPath := backup }]) rest
          (setBackup before rest { record with backupPath := backup } s)) := by
  unfold backUp
  refine Triple.bind (R := fun _ => Backing staged names suffix d₀ before (record :: rest)) ?_
    fun _ => ?_
  · exact (keeps_makeParent record.path plan).conseq (fun _ h => h) (fun _ _ h => h)
      (fun _ h => h.safe) fun _ _ => trivial
  refine Triple.bind (R := fun a s =>
    a = s ∧ Backing staged names suffix d₀ before (record :: rest) s) ?_ fun s₁ => ?_
  · exact Triple.inspect fun s h => ⟨rfl, h⟩
  refine Triple.intro fun s hs => ?_
  obtain ⟨rfl, hs⟩ := hs
  rw [hs.suffix_eq]
  dsimp only
  refine Triple.bind (R := fun _ s => s.1 = s₁.1 ∧
      ChangedAt (backupName suffix record.path s₁.2) s₁.2 s.2 ∧
      s.2.get? (backupName suffix record.path s₁.2) = some ((s₁.2.get? record.path).getD [])) ?_
    fun _ => ?_
  · refine Triple.onSecond s₁.1 copyOrEmpty_spec ?_ ?_ ?_ fun _ _ => trivial
    · rintro s rfl
      exact ⟨rfl, rfl⟩
    · exact fun _ d h => ⟨rfl, h⟩
    · exact fun d h => hs.torn hchanged h
  · refine Triple.pure ?_
    rintro ⟨m, d⟩ ⟨rfl, hd, hcopy⟩
    exact hs.next hchanged rfl hfree hd hcopy

/-- By induction on the records that are left. -/
theorem backUpAll_spec (hfree : ∀ q ∈ names, ¬Present d₀ q) (rest : List AtomicEditRecord) :
    ∀ before, Triple plan (Backing staged names suffix d₀ before rest) (backUpAll before rest)
      (safely staged names d₀ fun _ s => ∃ all, Backing staged names suffix d₀ all [] s) := by
  induction rest with
  | nil => exact fun before => Triple.pure fun s hs => ⟨before, hs⟩
  | cons record rest ih =>
    intro before
    rw [backUpAll]
    split
    · rename_i hchanged
      refine Triple.bind (R := fun _ => Backing staged names suffix d₀ before (record :: rest)) ?_
        fun _ => ?_
      · refine Triple.assign fun s hs => ?_
        exact ⟨hs.records, hs.suffix_eq, hs.same, hs.fresh, hs.backed, hs.saved, hs.kept, hs.named⟩
      refine Triple.bind (backUp_spec hchanged hfree) fun backup => ?_
      exact Triple.bind (Triple.assign fun s hs => hs) fun _ => ih _
    · rename_i hchanged
      refine (ih (before ++ [record])).conseq (fun s hs => ?_) (fun _ _ h => h) (fun _ h => h)
        fun _ h => h
      have happend : before ++ [record] ++ rest = before ++ record :: rest :=
        List.append_cons before record rest ▸ rfl
      have hrecord : record.backupPath = "" := hs.fresh record List.mem_cons_self
      refine ⟨happend ▸ hs.records, hs.suffix_eq, happend ▸ hs.same, ?_, ?_, ?_, hs.kept, ?_⟩
      · exact fun r hr => hs.fresh r (List.mem_cons_of_mem record hr)
      · intro r hr hr'
        rcases List.mem_append.mp hr with hr | hr
        · exact hs.backed r hr hr'
        · exact absurd (List.mem_singleton.mp hr ▸ hr') hchanged
      · intro r hr hr'
        rcases List.mem_append.mp hr with hr | hr
        · exact hs.saved r hr hr'
        · exact absurd (List.mem_singleton.mp hr ▸ hrecord) hr'
      · have hpaths : changedPaths (record :: rest) = changedPaths rest := by
          rw [changedPaths, List.filter_cons_of_neg hchanged]
          rfl
        exact hpaths ▸ hs.named

/-! ## The second loop -/

def lastOf (records : List AtomicEditRecord) (path : String) : Option AtomicEditRecord :=
  records.reverse.find? fun r => r.path = path

theorem lastOf_cons (r : AtomicEditRecord) (records : List AtomicEditRecord) (path : String) :
    lastOf (r :: records) path =
      (lastOf records path).or (if r.path = path then some r else none) := by
  unfold lastOf
  rw [List.reverse_cons, List.find?_append, List.find?_singleton]
  simp only [decide_eq_true_eq]

def afterWrites (records : List AtomicEditRecord) (d : Disk UInt8) (path : String) :
    Option (List UInt8) :=
  match lastOf records path with
  | some r => some (encode r.after)
  | none => d.get? path

theorem afterWrites_cons {records : List AtomicEditRecord} {d' : Disk UInt8}
    (hd : ChangedAt r.path d d') (hwritten : d'.get? r.path = some (encode r.after)) (path : String)
    : afterWrites records d' path = afterWrites (r :: records) d path := by
  unfold afterWrites
  rw [lastOf_cons]
  cases lastOf records path with
  | some r' => rfl
  | none =>
    rw [Option.none_or]
    by_cases hpath : r.path = path
    · rw [if_pos hpath, ← hpath]
      exact hwritten
    · rw [if_neg hpath]
      exact hd path (Ne.symm hpath)

theorem writeAll_spec (records : List AtomicEditRecord) :
    ∀ d₁ : Disk UInt8, Triple plan (fun s => s.2 = d₁) (writeAll records)
      (Post.answers fun _ s => ∀ path, s.2.get? path = afterWrites records d₁ path) := by
  induction records with
  | nil =>
    intro d₁
    refine Triple.pure ?_
    rintro s rfl path
    rfl
  | cons r records ih =>
    intro d₁
    rw [writeAll]
    refine Triple.bind (R := fun _ s => s.2 = d₁) (Triple.assign fun s hs => hs) fun _ => ?_
    refine Triple.bind (R := fun _ s => ChangedAt r.path d₁ s.2 ∧
        s.2.get? r.path = some (encode r.after)) ?_ fun _ => ?_
    · refine Triple.intro fun s hs => ?_
      refine Triple.onSecond s.1 (writeFile_spec (encode r.after)) ?_ (fun _ d hd => hd)
        (fun _ _ => trivial) fun _ _ => trivial
      rintro s' rfl
      exact ⟨rfl, hs ▸ ChangedAt.refl r.path s'.2⟩
    refine Triple.bind (R := fun _ s => ChangedAt r.path d₁ s.2 ∧
        s.2.get? r.path = some (encode r.after)) (Triple.assign fun s hs => hs) fun _ => ?_
    refine Triple.intro fun s hs => ?_
    refine (ih s.2).conseq ?_ (fun _ s' hs' path => ?_) (fun _ _ => trivial) fun _ _ => trivial
    · rintro s' rfl
      rfl
    · exact (hs' path).trans (afterWrites_cons hs.1 hs.2 path)

/-- A write to a file that was there, and has a backup. -/
theorem Safe.written (h : Safe staged names d₀ s) (hpath : Present d₀ path)
    (hbackup : ∃ r ∈ s.1.session.records, r.backupPath ≠ "" ∧ r.path = path)
    (hd : ChangedAt path s.2 d) : Safe staged names d₀ (s.1, d) := by
  refine ⟨h.same, fun r hr hr' => ?_, fun q hq => ?_⟩
  · refine (h.saved r hr hr').changedAt hd fun _ heq => ?_
    exact (h.saved r hr hr').new (heq ▸ hpath)
  · by_cases heq : q = path
    · exact Or.inr (heq ▸ hbackup)
    · change d.get? q = _ ∨ _
      rw [hd q heq]
      exact h.kept q hq

theorem Safe.of_same {m : Memory} (h : Safe staged names d₀ s)
    (hrecords : m.session.records = s.1.session.records) : Safe staged names d₀ (m, s.2) :=
  ⟨hrecords ▸ h.same, hrecords ▸ h.saved, hrecords ▸ h.kept⟩

/-- It is safe to roll back, and these are the records. -/
def SafeWith (staged : List AtomicEditRecord) (names : List String) (d₀ : Disk UInt8)
    (records : List AtomicEditRecord) (s : State) : Prop :=
  Safe staged names d₀ s ∧ s.1.session.records = records

variable {records : List AtomicEditRecord}

variable {m : Eff (Disk UInt8) Unit}

/-- A program that writes only at this path. -/
theorem safeWith_onSecond (hpath : Present d₀ path)
    (hbackup : ∃ r ∈ records, r.backupPath ≠ "" ∧ r.path = path) {R : Disk UInt8 → Prop}
    (hs : SafeWith staged names d₀ records s)
    (hm : Triple plan (fun d => d = s.2) m (onlyAt path s.2 fun _ => R)) :
    Triple plan (fun s' => s' = s) (Eff.onSecond m)
      ⟨fun _ s' => SafeWith staged names d₀ records s' ∧ ChangedAt path s.2 s'.2 ∧ R s'.2,
        SafeWith staged names d₀ records, fun _ => True⟩ := by
  obtain ⟨hsafe, rfl⟩ := hs
  refine Triple.onSecond s.1 hm ?_ (fun _ d hd => ?_) (fun d hd => ?_) fun _ _ => trivial
  · rintro s' rfl
    exact ⟨rfl, rfl⟩
  · exact ⟨⟨hsafe.written hpath hbackup hd.1, rfl⟩, hd⟩
  · exact ⟨hsafe.written hpath hbackup hd, rfl⟩

theorem safe_writeAll (writes : List AtomicEditRecord)
    (h : ∀ w ∈ writes, Present d₀ w.path ∧ ∃ r ∈ records, r.backupPath ≠ "" ∧ r.path = w.path) :
    Triple plan (SafeWith staged names d₀ records) (writeAll writes)
      ⟨fun _ => SafeWith staged names d₀ records, SafeWith staged names d₀ records,
        fun _ => True⟩ := by
  induction writes with
  | nil => exact Triple.pure fun s hs => hs
  | cons w writes ih =>
    obtain ⟨hpath, hbackup⟩ := h w List.mem_cons_self
    rw [writeAll]
    refine Triple.bind (R := fun _ => SafeWith staged names d₀ records) ?_ fun _ => ?_
    · exact Triple.assign fun s hs => ⟨hs.1.of_same rfl, hs.2⟩
    refine Triple.bind (R := fun _ => SafeWith staged names d₀ records) ?_ fun _ => ?_
    · refine Triple.intro fun s hs => ?_
      refine (safeWith_onSecond (R := fun _ => True) hpath hbackup hs ?_).conseq (fun _ h => h)
        (fun _ _ h => h.1) (fun _ h => h) fun _ h => h
      refine (writeFile_spec (encode w.after)).conseq ?_ (fun _ _ hd => ⟨hd.1, trivial⟩)
        (fun _ hd => hd) fun _ hd => hd
      rintro d rfl
      exact ChangedAt.refl w.path s.2
    refine Triple.bind (R := fun _ => SafeWith staged names d₀ records) ?_ fun _ => ?_
    · exact Triple.assign fun s hs => ⟨hs.1.of_same rfl, hs.2⟩
    · exact ih fun w' hw' => h w' (List.mem_cons_of_mem w hw')

/-! ## Rolling back -/

theorem Safe.present_backup (h : Safe staged names d₀ s)
    (hpresent : ∀ r ∈ staged, r.changed = true → Present d₀ r.path) (hr : r ∈ s.1.session.records)
    (hbackup : r.backupPath ≠ "") : Present d₀ r.path := by
  have hmem : r.unbacked ∈ staged := h.same ▸ List.mem_map_of_mem hr
  exact hpresent r.unbacked hmem (h.saved r hr hbackup).changed

theorem restore_spec (hpresent : ∀ r ∈ staged, r.changed = true → Present d₀ r.path)
    (hs : SafeWith staged names d₀ records s) (hr : r ∈ records) (hbackup : r.backupPath ≠ "") :
    Triple plan (fun s' => s' = s) (restore r)
      ⟨fun _ s' => SafeWith staged names d₀ records s' ∧ ChangedAt r.path s.2 s'.2 ∧
          s'.2.get? r.path = d₀.get? r.path,
        SafeWith staged names d₀ records, fun _ => True⟩ := by
  have hmem : r ∈ s.1.session.records := hs.2 ▸ hr
  have hpath := hs.1.present_backup hpresent hmem hbackup
  obtain ⟨content, hcontent⟩ := hpath
  have hsaved := (hs.1.saved r hmem hbackup).content content hcontent
  unfold restore
  refine Triple.bind (R := fun a s' => a = s ∧ s' = s) ?_ fun a => ?_
  · refine Triple.inspect ?_
    rintro s' rfl
    exact ⟨rfl, rfl⟩
  refine Triple.intro fun s' hs' => ?_
  obtain ⟨rfl, rfl⟩ := hs'
  rw [if_pos (Dict.contains_iff.mpr ⟨content, hsaved⟩)]
  refine Triple.bind (R := fun _ s₁ => s₁ = s') ?_ fun _ => ?_
  · refine (keeps_makeParent r.path plan).conseq (fun _ h => h) (fun _ _ h => h) ?_
      fun _ _ => trivial
    rintro s' rfl
    exact hs
  refine Triple.bind (safeWith_onSecond ⟨content, hcontent⟩ ⟨r, hr, hbackup, rfl⟩ hs
    (copyFile_spec hsaved)) fun _ => ?_
  exact Triple.pure fun s' h => ⟨h.1, h.2.1, h.2.2.trans hcontent.symm⟩

/-- By induction on the records that are left; a file that is as it was stays so. -/
theorem restoreAll_spec (hpresent : ∀ r ∈ staged, r.changed = true → Present d₀ r.path)
    (rest : List AtomicEditRecord) (hrest : ∀ r ∈ rest, r ∈ records) :
    ∀ restored errors (s : State), SafeWith staged names d₀ records s →
      Triple plan (fun s' => s' = s) (restoreAll restored errors rest)
        (Post.answers fun out s' => SafeWith staged names d₀ records s' ∧
          (out.2 = [] → errors = [] ∧
            (∀ q, s.2.get? q = d₀.get? q → s'.2.get? q = d₀.get? q) ∧
            ∀ r ∈ rest, r.backupPath ≠ "" → s'.2.get? r.path = d₀.get? r.path)) := by
  induction rest with
  | nil =>
    intro restored errors s hs
    refine Triple.pure ?_
    rintro s' rfl
    exact ⟨hs, fun herrors => ⟨herrors, fun _ h => h, fun r hr => by cases hr⟩⟩
  | cons r rest ih =>
    intro restored errors s hs
    have ih := ih fun r' hr' => hrest r' (List.mem_cons_of_mem r hr')
    rw [restoreAll]
    split
    · rename_i hbackup
      refine (ih restored errors s hs).conseq (fun _ h => h) (fun out s' h => ?_)
        (fun _ h => h) fun _ h => h
      refine ⟨h.1, fun hout => ?_⟩
      obtain ⟨herrors, hkept, hrestored⟩ := h.2 hout
      refine ⟨herrors, hkept, fun r' hr' hbackup' => ?_⟩
      rcases List.mem_cons.mp hr' with rfl | hr'
      · exact absurd hbackup hbackup'
      · exact hrestored r' hr' hbackup'
    · rename_i hbackup
      refine Triple.bind (R := fun outcome s' => SafeWith staged names d₀ records s' ∧
          ∀ b, outcome = .ok b → ChangedAt r.path s.2 s'.2 ∧
            s'.2.get? r.path = d₀.get? r.path) ?_ fun outcome => ?_
      · refine Triple.attempt ((restore_spec hpresent hs (hrest r List.mem_cons_self)
          hbackup).conseq (fun _ h => h) (fun b s' h => ⟨h.1, fun _ _ => h.2⟩) ?_ fun _ h => h)
        exact fun s' h e => ⟨h, fun b hb => by cases hb⟩
      refine Triple.intro fun s₁ hs₁ => ?_
      obtain ⟨hsafe, hdone⟩ := hs₁
      have hcarry : ∀ b restored', outcome = .ok b →
          Triple plan (fun s' => s' = s₁) (restoreAll restored' errors rest)
            (Post.answers fun out s' => SafeWith staged names d₀ records s' ∧
              (out.2 = [] → errors = [] ∧
                (∀ q, s.2.get? q = d₀.get? q → s'.2.get? q = d₀.get? q) ∧
                ∀ r' ∈ r :: rest, r'.backupPath ≠ "" →
                  s'.2.get? r'.path = d₀.get? r'.path)) := by
        intro b restored' hb
        obtain ⟨hchanged, hback⟩ := hdone b hb
        refine (ih restored' errors s₁ hsafe).conseq (fun _ h => h) (fun out s' h => ?_)
          (fun _ h => h) fun _ h => h
        refine ⟨h.1, fun hout => ?_⟩
        obtain ⟨herrors, hkept, hrestored⟩ := h.2 hout
        refine ⟨herrors, fun q hq => hkept q ?_, fun r' hr' hbackup' => ?_⟩
        · by_cases heq : q = r.path
          · rw [heq]
            exact hback
          · rw [hchanged q heq]
            exact hq
        · rcases List.mem_cons.mp hr' with rfl | hr'
          · exact hkept _ hback
          · exact hrestored r' hr' hbackup'
      match outcome with
      | .ok true => exact hcarry true _ rfl
      | .ok false => exact hcarry false _ rfl
      | .error e =>
        refine (ih restored _ s₁ hsafe).conseq (fun _ h => h) (fun out s' h => ?_)
          (fun _ h => h) fun _ h => h
        refine ⟨h.1, fun hout => ?_⟩
        exact absurd (h.2 hout).1 (List.append_ne_nil_of_right_ne_nil _ (List.cons_ne_nil _ _))

/-- Every staged path is as it was. -/
def Restored (staged : List AtomicEditRecord) (d₀ d : Disk UInt8) : Prop :=
  ∀ r ∈ staged, d.get? r.path = d₀.get? r.path

theorem rollback_spec (hpresent : ∀ r ∈ staged, r.changed = true → Present d₀ r.path)
    (hfree : ∀ q ∈ names, ¬Present d₀ q)
    (hnames : ∀ r ∈ staged, ¬Present d₀ r.path → r.path ∉ names) :
    Triple plan (Safe staged names d₀) rollback
      (Post.answers fun report s => Safe staged names d₀ s ∧
        (report.errors = [] → Restored staged d₀ s.2)) := by
  unfold rollback
  refine Triple.bind (R := fun a s => a = s ∧ Safe staged names d₀ s) ?_ fun a => ?_
  · exact Triple.inspect fun s hs => ⟨rfl, hs⟩
  refine Triple.intro fun s hs => ?_
  obtain ⟨rfl, hs⟩ := hs
  have hall : ∀ r ∈ a.1.session.records.reverse, r ∈ a.1.session.records :=
    fun r hr => List.mem_reverse.mp hr
  refine Triple.bind ((restoreAll_spec hpresent _ hall [] [] a ⟨hs, rfl⟩).conseq
    (fun _ h => h) (fun _ _ h => h) (fun _ _ => trivial) fun _ _ => trivial) fun out => ?_
  refine Triple.bind (Triple.assign fun s h => ?_) fun _ => Triple.pure fun s h => h
  refine ⟨h.1.1.of_same rfl, fun hout r hr => ?_⟩
  obtain ⟨-, hkept, hrestored⟩ := h.2 hout
  have hname : r.path ∉ names := by
    by_cases hpath : Present d₀ r.path
    · exact fun hmem => hfree _ hmem hpath
    · exact hnames r hr hpath
  rcases hs.kept r.path hname with hsame | ⟨r', hr', hbackup, hpath⟩
  · exact hkept _ hsame
  · rw [← hpath]
    exact hrestored r' (List.mem_reverse.mpr hr') hbackup

/-! ## The commit -/

/-- No record has a backup yet. -/
def Fresh (session : AtomicEditSession) : Prop := ∀ r ∈ session.records, r.backupPath = ""

def start (session : AtomicEditSession) : Memory := ⟨session, [], [], ""⟩

variable {session : AtomicEditSession}

theorem backing_start (hfresh : Fresh session) :
    Backing session.records (takenNames session d₀) session.backupSuffix d₀ [] session.records
      (start session, d₀) := by
  refine ⟨rfl, rfl, ?_, hfresh, fun r hr => (by cases hr), fun r hr => (by cases hr), fun _ _ => rfl,
    ⟨[], rfl, fun q hq => (by cases hq)⟩⟩
  refine (List.map_congr_left fun r hr => ?_).trans (List.map_id session.records)
  rw [AtomicEditRecord.unbacked, ← hfresh r hr]
  rfl

theorem mem_changedRecords :
    r ∈ session.changedRecords ↔ r ∈ session.records ∧ r.changed = true := by
  unfold AtomicEditSession.changedRecords
  rw [List.mem_filter]

theorem commitBody_safe (hpresent : ∀ r ∈ session.records, r.changed = true → Present d₀ r.path) :
    Triple plan (Backing session.records (takenNames session d₀) session.backupSuffix d₀ []
        session.records) (commitBody session)
      (safely session.records (takenNames session d₀) d₀ fun _ =>
        Safe session.records (takenNames session d₀) d₀) := by
  unfold commitBody
  refine Triple.bind (backUpAll_spec (fun q => backupNames_free _) _ []) fun _ => ?_
  refine Triple.intro fun s hs => ?_
  obtain ⟨all, hs⟩ := hs
  have hwrites : ∀ w ∈ session.changedRecords, Present d₀ w.path ∧
      ∃ r ∈ all, r.backupPath ≠ "" ∧ r.path = w.path := by
    intro w hw
    obtain ⟨hmem, hchanged⟩ := mem_changedRecords.mp hw
    refine ⟨hpresent w hmem hchanged, ?_⟩
    have hsame := hs.same
    rw [List.append_nil] at hsame
    obtain ⟨r, hr, rfl⟩ := List.mem_map.mp (hsame ▸ hmem)
    exact ⟨r, hr, hs.backed r hr hchanged, rfl⟩
  refine Triple.bind ((safe_writeAll session.changedRecords hwrites).conseq ?_ (fun _ _ h => h)
    (fun _ h => h.1) fun _ h => h) fun _ => Triple.assign fun s h => h.1.of_same rfl
  rintro s' rfl
  exact ⟨hs.safe, hs.records.trans (List.append_nil all)⟩

/-- All writes have been made, and no backup is missing. -/
structure Written (session : AtomicEditSession) (d₀ d : Disk UInt8) : Prop where
  texts : ∀ path r, lastOf session.changedRecords path = some r →
    d.get? path = some (encode r.after)
  backups : ∀ q ∈ takenNames session d₀, Present d q

theorem commitBody_written :
    Triple plan (Backing session.records (takenNames session d₀) session.backupSuffix d₀ []
        session.records) (commitBody session)
      (Post.answers fun _ s => Written session d₀ s.2) := by
  unfold commitBody
  refine Triple.bind ((backUpAll_spec (fun q => backupNames_free _) _ []).conseq (fun _ h => h)
    (fun _ _ h => h) (fun _ _ => trivial) fun _ _ => trivial) fun _ => ?_
  refine Triple.intro fun s hs => ?_
  obtain ⟨all, hs⟩ := hs
  refine Triple.bind ((writeAll_spec session.changedRecords s.2).conseq ?_ (fun _ _ h => h)
    (fun _ h => h) fun _ h => h) fun _ => Triple.assign fun s' h => ⟨?_, ?_⟩
  · rintro s' rfl
    rfl
  · intro path r hlast
    rw [setCommitted, h path, afterWrites, hlast]
  · intro q hq
    obtain ⟨done, hnames, hdone⟩ := hs.named
    rw [takenNames, hnames] at hq
    obtain ⟨content, hcontent⟩ := hdone q (by simpa [backupNames, changedPaths] using hq)
    unfold Present
    rw [setCommitted, h q, afterWrites]
    cases lastOf session.changedRecords q with
    | some r => exact ⟨_, rfl⟩
    | none => exact ⟨content, hcontent⟩

theorem commit_written (hfresh : Fresh session) :
    Triple plan (fun s => s = (start session, d₀)) commit
      (Post.answers fun report s => report.ok = true → Written session d₀ s.2) := by
  unfold commit
  refine Triple.bind (R := fun _ s => s = (start session, d₀)) ?_ fun _ => ?_
  · refine Triple.assign ?_
    rintro s rfl
    rfl
  refine Triple.bind (R := fun a s => a = (start session, d₀) ∧ s = (start session, d₀)) ?_
    fun a => ?_
  · refine Triple.inspect ?_
    rintro s rfl
    exact ⟨rfl, rfl⟩
  refine Triple.intro fun s hs => ?_
  obtain ⟨rfl, rfl⟩ := hs
  refine Triple.bind (R := fun outcome s => outcome = .ok () → Written session d₀ s.2) ?_
    fun outcome => ?_
  · refine Triple.attempt (commitBody_written.conseq ?_ (fun _ _ h _ => h)
      (fun _ _ e he => by cases he) fun _ h => h)
    rintro s rfl
    exact backing_start hfresh
  · match outcome with
    | .ok () =>
      refine Triple.bind (R := fun _ s => Written session d₀ s.2) ?_ fun _ => ?_
      · exact Triple.inspect fun s h => h rfl
      · exact Triple.pure fun s h _ => h
    | .error e =>
      refine Triple.bind (Triple.trivial plan _ _) fun _ => ?_
      refine Triple.bind (Triple.trivial plan _ _) fun _ => ?_
      exact Triple.pure fun s _ hok => by cases hok

theorem commit_safe (hfresh : Fresh session)
    (hpresent : ∀ r ∈ session.records, r.changed = true → Present d₀ r.path)
    (hnames : ∀ r ∈ session.records, ¬Present d₀ r.path → r.path ∉ takenNames session d₀) :
    Triple plan (fun s => s = (start session, d₀)) commit
      (Post.answers fun report s => Safe session.records (takenNames session d₀) d₀ s ∧
        ∀ failure, report.failure = some failure → failure.rollback.errors = [] →
          Restored session.records d₀ s.2) := by
  unfold commit
  refine Triple.bind (R := fun _ s => s = (start session, d₀)) ?_ fun _ => ?_
  · refine Triple.assign ?_
    rintro s rfl
    rfl
  refine Triple.bind (R := fun a s => a = (start session, d₀) ∧ s = (start session, d₀)) ?_
    fun a => ?_
  · refine Triple.inspect ?_
    rintro s rfl
    exact ⟨rfl, rfl⟩
  refine Triple.intro fun s hs => ?_
  obtain ⟨rfl, rfl⟩ := hs
  refine Triple.bind (R := fun _ => Safe session.records (takenNames session d₀) d₀) ?_
    fun outcome => ?_
  · refine Triple.attempt ((commitBody_safe hpresent).conseq ?_ (fun _ _ h => h) (fun _ h _ => h)
      fun _ h => h)
    rintro s rfl
    exact backing_start hfresh
  · match outcome with
    | .ok () =>
      refine Triple.bind (R := fun _ => Safe session.records (takenNames session d₀) d₀)
        (Triple.inspect fun s h => h) fun _ => ?_
      exact Triple.pure fun s h => ⟨h, fun failure hfailure => by cases hfailure⟩
    | .error e =>
      have hfree : ∀ q ∈ takenNames session d₀, ¬Present d₀ q := fun q hq => backupNames_free _ hq
      refine Triple.bind (rollback_spec hpresent hfree hnames) fun rolledBack => ?_
      refine Triple.bind (R := fun _ s => Safe session.records (takenNames session d₀) d₀ s ∧
        (rolledBack.errors = [] → Restored session.records d₀ s.2)) (Triple.inspect fun s h => h)
        fun _ => ?_
      refine Triple.pure fun s h => ⟨h.1, ?_⟩
      rintro failure ⟨⟩ hout
      exact h.2 hout

theorem rollbacks_spec (hpresent : ∀ r ∈ session.records, r.changed = true → Present d₀ r.path)
    (hnames : ∀ r ∈ session.records, ¬Present d₀ r.path → r.path ∉ takenNames session d₀)
    (n : ℕ) :
    Triple plan (Safe session.records (takenNames session d₀) d₀) (rollbacks n)
      (Post.answers fun report s => report.errors = [] → Restored session.records d₀ s.2) := by
  have hrollback : Triple plan (Safe session.records (takenNames session d₀) d₀) rollback
      (Post.answers fun report s => Safe session.records (takenNames session d₀) d₀ s ∧
        (report.errors = [] → Restored session.records d₀ s.2)) :=
    rollback_spec hpresent (fun q hq => backupNames_free _ hq) hnames
  induction n with
  | zero => exact hrollback.conseq (fun _ h => h) (fun _ _ h => h.2) (fun _ h => h) fun _ h => h
  | succ n ih =>
    refine Triple.bind (R := fun _ => Safe session.records (takenNames session d₀) d₀) ?_
      fun _ => ih
    exact hrollback.conseq (fun _ h => h) (fun _ _ h => h.1) (fun _ h => h) fun _ h => h

/-! ## Where nothing fails -/

theorem onSecond_total {P : Disk UInt8 → Prop} (h : Triple plan P m (Post.total fun _ _ => True)) :
    Triple plan (fun s => P s.2) (Eff.onSecond m : Eff State Unit) (Post.total fun _ _ => True) := by
  refine Triple.intro fun s hs => ?_
  refine Triple.onSecond s.1 h ?_ (fun _ _ _ => trivial) (fun _ h => h) fun _ h => h
  rintro s' rfl
  exact ⟨rfl, hs⟩

theorem makeParent_total {P : State → Prop} (hplan : ∀ n, plan n = .ok) (path : String) :
    Triple plan P (Eff.onSecond (makeParent path)) (Post.total fun _ => P) := by
  refine Triple.intro fun s hs => ?_
  have hsecond : Triple plan (fun d => d = s.2) (makeParent path)
      (Post.total fun _ d => d = s.2) := by
    unfold makeParent
    split
    · exact touch_total hplan
    · exact Triple.pure fun _ h => h
  refine Triple.onSecond s.1 hsecond ?_ ?_ (fun _ h => h) fun _ h => h
  · rintro s' rfl
    exact ⟨rfl, rfl⟩
  · rintro _ d rfl
    exact hs

theorem copyOrEmpty_total (hplan : ∀ n, plan n = .ok) (path backup : String) :
    Triple plan (fun d' => d' = d) (copyOrEmpty path backup d) (Post.total fun _ _ => True) := by
  unfold copyOrEmpty
  split
  · rename_i hpresent
    refine (copyFile_total hplan path backup).conseq ?_ (fun _ _ h => h) (fun _ h => h)
      fun _ h => h
    rintro d' rfl
    exact contains_iff_present.mp hpresent
  · exact (writeFile_total hplan []).conseq (fun _ _ => trivial) (fun _ _ h => h) (fun _ h => h)
      fun _ h => h

theorem backUpAll_total (hplan : ∀ n, plan n = .ok) (rest : List AtomicEditRecord) :
    ∀ before, Triple plan (fun _ => True) (backUpAll before rest) (Post.total fun _ _ => True) := by
  induction rest with
  | nil => exact fun before => Triple.pure fun _ _ => trivial
  | cons record rest ih =>
    intro before
    rw [backUpAll]
    split
    · refine Triple.bind (R := fun _ _ => True) (Triple.assign fun _ _ => trivial) fun _ => ?_
      refine Triple.bind (R := fun _ _ => True) ?_ fun backup => ?_
      · unfold backUp
        refine Triple.bind (makeParent_total hplan record.path) fun _ => ?_
        refine Triple.bind (R := fun a s => s = a) (Triple.inspect fun _ _ => rfl) fun a => ?_
        refine Triple.bind (R := fun _ _ => True) ?_ fun _ => Triple.pure fun _ _ => trivial
        refine (onSecond_total (copyOrEmpty_total hplan record.path _)).conseq ?_ (fun _ _ h => h)
          (fun _ h => h) fun _ h => h
        rintro s rfl
        rfl
      · exact Triple.bind (R := fun _ _ => True) (Triple.assign fun _ _ => trivial) fun _ => ih _
    · exact ih _

theorem writeAll_total (hplan : ∀ n, plan n = .ok) (records : List AtomicEditRecord) :
    Triple plan (fun _ => True) (writeAll records) (Post.total fun _ _ => True) := by
  induction records with
  | nil => exact Triple.pure fun _ _ => trivial
  | cons r records ih =>
    rw [writeAll]
    refine Triple.bind (R := fun _ _ => True) (Triple.assign fun _ _ => trivial) fun _ => ?_
    refine Triple.bind (onSecond_total (writeFile_total hplan _)) fun _ => ?_
    exact Triple.bind (R := fun _ _ => True) (Triple.assign fun _ _ => trivial) fun _ => ih

theorem restore_total (hplan : ∀ n, plan n = .ok) (r : AtomicEditRecord) :
    Triple plan (fun _ => True) (restore r) (Post.total fun _ _ => True) := by
  unfold restore
  refine Triple.bind (R := fun a s => s = a) (Triple.inspect fun _ _ => rfl) fun a => ?_
  split
  · rename_i hpresent
    refine Triple.bind (makeParent_total hplan r.path) fun _ => ?_
    refine Triple.bind (R := fun _ _ => True) ?_ fun _ => Triple.pure fun _ _ => trivial
    refine (onSecond_total (copyFile_total hplan _ _)).conseq ?_ (fun _ _ h => h)
      (fun _ h => h) fun _ h => h
    rintro s rfl
    exact contains_iff_present.mp hpresent
  · exact Triple.pure fun _ _ => trivial

theorem restoreAll_total (hplan : ∀ n, plan n = .ok) (rest : List AtomicEditRecord) :
    ∀ restored, Triple plan (fun _ => True) (restoreAll restored [] rest)
      (Post.total fun out _ => out.2 = []) := by
  induction rest with
  | nil => exact fun restored => Triple.pure fun _ _ => rfl
  | cons r rest ih =>
    intro restored
    rw [restoreAll]
    split
    · exact ih restored
    · refine Triple.bind (restore_total hplan r).attempt_total fun outcome => ?_
      refine Triple.intro fun s hs => ?_
      obtain ⟨b, rfl, -⟩ := hs
      have hrest : ∀ restored', Triple plan (fun s' => s' = s) (restoreAll restored' [] rest)
          (Post.total fun out _ => out.2 = []) := fun restored' =>
        (ih restored').conseq (fun _ _ => trivial) (fun _ _ h => h) (fun _ h => h) fun _ h => h
      cases b with
      | false => exact hrest restored
      | true => exact hrest _

theorem rollback_total (hplan : ∀ n, plan n = .ok) :
    Triple plan (fun _ => True) rollback (Post.total fun report _ => report.errors = []) := by
  unfold rollback
  refine Triple.bind (R := fun _ _ => True) (Triple.inspect fun _ _ => trivial) fun a => ?_
  refine Triple.bind (restoreAll_total hplan _ []) fun out => ?_
  refine Triple.bind (R := fun _ _ => out.2 = []) (Triple.assign fun _ h => h) fun _ => ?_
  exact Triple.pure fun _ h => h

theorem commitBody_total (hplan : ∀ n, plan n = .ok) :
    Triple plan (fun _ => True) (commitBody session) (Post.total fun _ _ => True) := by
  unfold commitBody
  refine Triple.bind (backUpAll_total hplan _ []) fun _ => ?_
  refine Triple.bind (writeAll_total hplan _) fun _ => ?_
  exact Triple.assign fun _ _ => trivial

theorem commit_total (hplan : ∀ n, plan n = .ok) :
    Triple plan (fun _ => True) commit (Post.total fun report _ => report.ok = true) := by
  unfold commit
  refine Triple.bind (R := fun _ _ => True) (Triple.assign fun _ _ => trivial) fun _ => ?_
  refine Triple.bind (R := fun _ _ => True) (Triple.inspect fun _ _ => trivial) fun a => ?_
  refine Triple.bind (commitBody_total hplan).attempt_total fun outcome => ?_
  refine Triple.intro fun s hs => ?_
  obtain ⟨-, rfl, -⟩ := hs
  refine Triple.bind (R := fun _ _ => True) (Triple.inspect fun _ _ => trivial) fun _ => ?_
  exact Triple.pure fun _ _ => rfl

theorem keeps_restoreAll {q : String} (rest : List AtomicEditRecord) :
    ∀ restored errors, Keeps (fun s : State => Present s.2 q) (restoreAll restored errors rest) := by
  induction rest with
  | nil => exact fun _ _ => Keeps.pure _
  | cons r rest ih =>
    intro restored errors
    rw [restoreAll]
    split
    · exact ih restored errors
    · refine Keeps.bind (Keeps.attempt ?_) fun outcome => ?_
      · unfold restore
        refine Keeps.bind (Keeps.inspect _) fun a => ?_
        split
        · refine Keeps.bind (keeps_makeParent r.path) fun _ => ?_
          exact Keeps.bind (Keeps.onSecond fun _ => keeps_copyFile _ _) fun _ => Keeps.pure true
        · exact Keeps.pure false
      · cases outcome with
        | error e => exact ih _ _
        | ok isRestored => cases isRestored <;> exact ih _ _

theorem keeps_rollback {q : String} : Keeps (fun s : State => Present s.2 q) rollback := by
  unfold rollback
  refine Keeps.bind (Keeps.inspect _) fun a => ?_
  refine Keeps.bind (keeps_restoreAll _ [] []) fun out => ?_
  exact Keeps.bind (Keeps.assign fun _ h => h) fun _ => Keeps.pure _

end Run

/-! ## All or nothing -/

/-- Whatever fails: a commit that succeeds has written the last text of every changed path, and after
one that has been rolled back without errors, then or later, every staged path is as it was. -/
structure AllOrNothing (session : AtomicEditSession) (d : Disk UInt8) : Prop where
  written : ∀ plan report c, commit plan (0, start session, d) = (.done report, c) →
    report.ok = true → ∀ path r, lastOf session.changedRecords path = some r →
      c.2.2.get? path = some (encode r.after)
  undone : ∀ plan report c, commit plan (0, start session, d) = (.done report, c) →
    report.ok = false → ∀ failure, report.failure = some failure →
      failure.rollback.errors = [] → Restored session.records d c.2.2
  rolledBack : ∀ plan report c, commit plan (0, start session, d) = (.done report, c) →
    ∀ n rolled c', rollbacks n plan c = (.done rolled, c') → rolled.errors = [] →
      Restored session.records d c'.2.2

/-- No staged path that is not there is to be changed, or has the name of a backup. -/
def Returnable (session : AtomicEditSession) (d : Disk UInt8) : Prop :=
  ∀ r ∈ session.records, d.get? r.path = none →
    r.changed = false ∧ r.path ∉ takenNames session d

theorem fresh_stage {abspath : String → String} (writes : List Write) :
    ∀ {session : AtomicEditSession}, Fresh session → Fresh (stage abspath session writes) := by
  induction writes with
  | nil => exact fun h => h
  | cons write writes ih =>
    intro session h
    rw [stage]
    apply ih
    unfold addWrite
    dsimp only
    split
    · rename_i session' hadd
      split_ifs at hadd
      cases hadd
      intro r hr
      rcases List.mem_append.mp hr with hr | hr
      · exact h r hr
      · rw [List.mem_singleton.mp hr]
    · exact h

theorem lastOf_isSome {records : List AtomicEditRecord} {r : AtomicEditRecord} (hr : r ∈ records) :
    ∃ r', lastOf records r.path = some r' := by
  refine Option.isSome_iff_exists.mp (List.find?_isSome.mpr ⟨r, List.mem_reverse.mpr hr, ?_⟩)
  exact decide_eq_true rfl

variable {session : AtomicEditSession}

/-- Where nothing fails, what a commit has made is still there after a rollback. -/
theorem returnable_of_allOrNothing {d : Disk UInt8} (hfresh : Fresh session)
    (h : AllOrNothing session d) : Returnable session d := by
  intro r hr hnone
  obtain ⟨report, c, hcommit, hok⟩ :=
    (commit_total (fun _ => rfl : ∀ n, (fun _ => Fate.ok) n = .ok)).exists_done 0
      (s := (start session, d)) trivial
  have hwritten := (commit_written hfresh).of_done rfl hcommit hok
  obtain ⟨rolled, c', hrollback, herrors⟩ :=
    (rollback_total (fun _ => rfl : ∀ n, (fun _ => Fate.ok) n = .ok)).exists_done c.1
      (s := c.2) trivial
  have hback := h.rolledBack _ report c hcommit 0 rolled c' hrollback herrors r hr
  have hgone : ¬Present c.2.2 r.path := by
    intro hpresent
    have hkept := (keeps_rollback.answers _).of_done hpresent hrollback
    rw [hnone] at hback
    exact get?_eq_none_iff.mp hback hkept
  constructor
  · by_contra hchanged
    have hmem := mem_changedRecords.mpr ⟨hr, (Bool.not_eq_false _).mp hchanged⟩
    obtain ⟨r', hlast⟩ := lastOf_isSome hmem
    exact hgone ⟨_, hwritten.texts r.path r' hlast⟩
  · exact fun hname => hgone (hwritten.backups r.path hname)

theorem allOrNothing_of_returnable {d : Disk UInt8} (hfresh : Fresh session)
    (h : Returnable session d) : AllOrNothing session d := by
  have hpresent : ∀ r ∈ session.records, r.changed = true → Present d r.path := by
    intro r hr hchanged
    by_contra hnot
    have hunchanged := (h r hr (get?_eq_none_iff.mpr hnot)).1
    rw [hchanged] at hunchanged
    cases hunchanged
  have hnames : ∀ r ∈ session.records, ¬Present d r.path → r.path ∉ takenNames session d :=
    fun r hr hnot => (h r hr (get?_eq_none_iff.mpr hnot)).2
  refine ⟨?_, ?_, ?_⟩
  · intro plan report c hcommit hok
    exact ((commit_written hfresh).of_done rfl hcommit hok).texts
  · intro plan report c hcommit _ failure hfailure herrors
    exact ((commit_safe hfresh hpresent hnames).of_done rfl hcommit).2 failure hfailure herrors
  · intro plan report c hcommit n rolled c' hrollbacks herrors
    have hsafe := ((commit_safe hfresh hpresent hnames).of_done rfl hcommit).1
    exact (rollbacks_spec hpresent hnames n).of_done hsafe hrollbacks herrors

theorem allOrNothing_iff_returnable (abspath : String → String) (backupSuffix : Option String)
    (now : ℕ) (writes : List Write) (d : Disk UInt8) :
    AllOrNothing (stage abspath (newSession backupSuffix now) writes) d ↔
      Returnable (stage abspath (newSession backupSuffix now) writes) d := by
  have hfresh : Fresh (stage abspath (newSession backupSuffix now) writes) :=
    fresh_stage writes fun r hr => by cases hr
  exact ⟨returnable_of_allOrNothing hfresh, allOrNothing_of_returnable hfresh⟩

def newFile : AtomicEditSession :=
  stage id (newSession (some "s") 0) [⟨some "/a", none, some "x"⟩]

/-- It is made and taken back without a failure, and is there afterwards, empty. -/
theorem new_file_left_empty :
    (∃ report c rolled c',
      commit (fun _ => .ok) (0, start newFile, Dict.empty) = (.done report, c) ∧
        rollbacks 0 (fun _ => .ok) c = (.done rolled, c') ∧ rolled.errors = [] ∧
        c'.2.2.get? "/a" = some []) ∧
      ¬AllOrNothing newFile Dict.empty := by
  have hrun : ∃ report c rolled c',
      commit (fun _ => .ok) (0, start newFile, Dict.empty) = (.done report, c) ∧
        rollbacks 0 (fun _ => .ok) c = (.done rolled, c') ∧ rolled.errors = [] ∧
        c'.2.2.get? "/a" = some [] := by
    obtain ⟨report, c, hcommit, -⟩ :=
      (commit_total (fun _ => rfl : ∀ n, (fun _ => Fate.ok) n = .ok)).exists_done 0
        (s := (start newFile, Dict.empty)) trivial
    obtain ⟨rolled, c', hrollback, herrors⟩ :=
      (rollback_total (fun _ => rfl : ∀ n, (fun _ => Fate.ok) n = .ok)).exists_done c.1
        (s := c.2) trivial
    refine ⟨report, c, rolled, c', hcommit, hrollback, herrors, ?_⟩
    have heval : (rollback (fun _ => .ok)
        (commit (fun _ => .ok) (0, start newFile, Dict.empty)).2).2.2.2.get? "/a" = some [] := by
      decide +kernel
    rw [hcommit] at heval
    change (rollback (fun _ => .ok) c).2.2.2.get? "/a" = some [] at heval
    rw [← heval]
    change _ = (rollback (fun _ => .ok) (c.1, c.2)).2.2.2.get? "/a"
    rw [hrollback]
  refine ⟨hrun, fun h => ?_⟩
  obtain ⟨report, c, rolled, c', hcommit, hrollback, herrors, hempty⟩ := hrun
  have hback := h.rolledBack _ report c hcommit 0 rolled c' hrollback herrors _ List.mem_cons_self
  change c'.2.2.get? "/a" = none at hback
  rw [hempty] at hback
  cases hback

end AtomicEdit
end ZeroRuntime
