import ZeroRuntime.Lib.FileMap
import ZeroRuntime.Lib.Machine
import ZeroRuntime.Lib.PathText

/-!
# ZeroRuntime.Reviews.Model

Reviews of code edits (`core/repo_sandbox/review.py`, `core/repo_sandbox/review_flow.py`): an edit
is made on a copy of its target first, and the copy goes over the target when the review is applied.

* `runCodeEditReviewTask` makes the copy and a review of it; `applyReview` and `rejectReview` settle
  the review.
* A review is made with two texts, the one its diff is computed from and the one the diff leads to.
* `reviewing` takes one call after the other, with files changed by others in between. Payloads name
  no runtime state here; the audit log is the one file that every call on reviews adds to.
-/

namespace ZeroRuntime
namespace Reviews

open Lib

inductive ReviewStatus where
  | pendingReview | applied | rejected
deriving DecidableEq, Repr

def ReviewStatus.text : ReviewStatus → String
  | pendingReview => "pending_review"
  | applied => "applied"
  | rejected => "rejected"

/-- What `unified_diff` is computed from, and the text it leads to. -/
structure Diff where
  original : String
  modified : String

structure ReviewRecord where
  reviewId : String
  filePath : String
  /-- The place of `sandbox_path`. -/
  sandboxPath : Names
  repoRoot : Names
  diff : Diff
  status : ReviewStatus := .pendingReview
  reason : Option String := none

structure World where
  files : FileMap := .empty
  /-- `_REVIEW_STORE` -/
  reviews : Dict String ReviewRecord := .empty

structure CodeEditIntent where
  status : String
  filePath : String := ""
  mode : String := "controlled_replace"
  oldText : String := ""
  newText : String := ""
  oldLine : String := ""
  newLine : String := ""

structure Host where
  /-- `parse_code_edit_intent` -/
  parseCodeEditIntent : String → CodeEditIntent
  /-- The audit log of a payload without a task, seen from the working directory. -/
  auditFile : Names

/-! ## Texts -/

def orText (a b : String) : String := if a = "" then b else a

def replaceFirst (old new : List Char) : List Char → List Char
  | [] => []
  | c :: cs =>
    if Text.isPrefix old (c :: cs) then new ++ (c :: cs).drop old.length
    else c :: replaceFirst old new cs

/-- `text.replace(old, new, 1)` -/
def replaceOnce (old new text : String) : String :=
  String.ofList (replaceFirst old.toList new.toList text.toList)

def normalizePath (path : String) : String :=
  String.ofList ((Text.replaceChar '\\' '/' path).toList.dropWhile fun c => c = '.' || c = '/')

/-! ## The audit log -/

/-- `log_payload_event`: what goes wrong here is passed over. -/
def logged (auditFile : Names) (line : String) (files : FileMap) : FileMap :=
  match files.write auditFile ((files.get? auditFile).getD "" ++ line) with
  | .ok files' => files'
  | .error _ => files

/-! ## A review is made -/

def readyStatuses : List String := ["ready", "ok", "approved", "accepted", "apply", "executable"]

def allowedModes : List String := ["controlled_replace"]

/-- The path of the payload, as it is read from it. -/
def CodeEditIntent.path (intent : CodeEditIntent) : String :=
  Text.strip (Text.replaceChar '\\' '/' intent.filePath)

def CodeEditIntent.old (intent : CodeEditIntent) : String := orText intent.oldText intent.oldLine

def CodeEditIntent.new (intent : CodeEditIntent) : String := orText intent.newText intent.newLine

/-- `_looks_auto_apply_safe`: the reason why it does not. -/
def unsafeReason (intent : CodeEditIntent) : Option String :=
  let status := Text.lower (Text.strip intent.status)
  let mode := Text.lower (Text.strip (orText intent.mode "controlled_replace"))
  if status ∉ readyStatuses then
    some ("intent status is not ready: " ++ orText status "unknown")
  else if mode ∉ allowedModes then
    some ("mode is not controlled_replace: " ++ orText mode "unknown")
  else if Text.startsWith intent.path "workspace/" = false then
    some "only workspace/ paths are allowed for auto apply"
  else if Text.strip (orText intent.oldLine intent.oldText) = "" then
    some "old_line/old_text is empty"
  else if Text.strip (orText intent.newLine intent.newText) = "" then
    some "new_line/new_text is empty"
  else none

inductive Answer where
  | blocked (reason : String)
  | pending (reviewId : String)
  | applied
  | rejected
  | error (message : String)
  | raised (e : Err)
  | edited
deriving DecidableEq, Repr

def sandboxPlace (root : Names) (reviewId path : String) : Names :=
  PathText.placeFrom (root ++ ["workspace", "repo_sandbox", reviewId]) path

/-- The review of an edit, with what the target holds. -/
def editReview (root : Names) (intent : CodeEditIntent) (reviewId original : String) :
    ReviewRecord where
  reviewId := reviewId
  filePath := intent.path
  sandboxPath := sandboxPlace root reviewId intent.path
  repoRoot := root
  diff := ⟨original, replaceOnce intent.old intent.new original⟩
  reason := some "sealed review required"

def createReview (host : Host) (w : World) (record : ReviewRecord) (line : String) : World where
  files := logged host.auditFile line w.files
  reviews := w.reviews.set record.reviewId record

def runCodeEditReviewTask (host : Host) (w : World) (root : Names)
    (taskText reviewId line : String) : Answer × World :=
  if Text.strip taskText = "" then (.blocked "empty task text", w)
  else
    let intent := host.parseCodeEditIntent (Text.strip taskText)
    match unsafeReason intent with
    | some reason => (.blocked reason, w)
    | none =>
      let target := PathText.placeFrom root intent.path
      if (root ++ ["workspace"]).isPrefixOf target = false then
        (.blocked "review target must remain inside workspace", w)
      else if w.files.present target = false then (.blocked "review target does not exist", w)
      else
        match w.files.get? target with
        | none => (.raised .osError, w)
        | some original =>
          if intent.old = "" ∨ Text.contains original intent.old = false then
            (.blocked "review old_text mismatch", w)
          else
            let record := editReview root intent reviewId original
            match w.files.write record.sandboxPath record.diff.modified with
            | .error e => (.raised e, w)
            | .ok files =>
              (.pending reviewId, createReview host { w with files := files } record line)

/-! ## A review is settled -/

def ReviewRecord.target (record : ReviewRecord) : Names :=
  PathText.placeFrom record.repoRoot (normalizePath record.filePath)

/-- Where `_find_sandbox_file` looks for the copy. -/
def sandboxCandidates (record : ReviewRecord) : List Names :=
  let dirs := [["workspace", "repo_sandbox"], ["worktree", "sandbox"], [".sandbox"], ["sandbox"]]
  record.sandboxPath :: dirs.map fun dir =>
    PathText.placeFrom (record.repoRoot ++ dir) (normalizePath record.filePath)

def findSandboxFile (files : FileMap) (record : ReviewRecord) : Option Names :=
  (sandboxCandidates record).find? files.present

/-- `record.status = …` -/
def World.settle (w : World) (record : ReviewRecord) (status : ReviewStatus)
    (reason : Option String) : World :=
  let settled := { record with status := status, reason := reason }
  { w with reviews := w.reviews.set record.reviewId settled }

def pendingReview (w : World) (reviewId : String) : Except Answer ReviewRecord :=
  match w.reviews.get? reviewId with
  | none => .error (.error "review not found")
  | some record =>
    if record.status ≠ .pendingReview then
      .error (.error ("review is not pending: " ++ record.status.text))
    else .ok record

/-- The copy goes over the target. `failing` is what a write that fails leaves in the target. -/
def applyReview (host : Host) (w : World) (reviewId line : String) (failing : Option String) :
    Answer × World :=
  match pendingReview w reviewId with
  | .error answer => (answer, w)
  | .ok record =>
    if record.filePath = "" then (.error "missing file_path", w)
    else if w.files.present record.target = false then
      (.error ("target not found: " ++ record.filePath), w)
    else
      match findSandboxFile w.files record with
      | none => (.error ("sandbox file not found for: " ++ record.filePath), w)
      | some copy =>
        match w.files.get? copy with
        | none => (.raised .osError, w)
        | some text =>
          match w.files.write record.target (failing.getD text) with
          | .error e => (.raised e, w)
          | .ok files =>
            if failing.isSome then (.raised .osError, { w with files := files })
            else (.applied, World.settle { w with files := logged host.auditFile line files } record
              .applied record.reason)

def rejectReview (host : Host) (w : World) (reviewId : String) (reason : String) (line : String) :
    Answer × World :=
  match pendingReview w reviewId with
  | .error answer => (answer, w)
  | .ok record =>
    (.rejected, World.settle { w with files := logged host.auditFile line w.files } record .rejected
      (if reason = "" then record.reason else some reason))

/-! ## Calls -/

inductive Call where
  | runCodeEditReviewTask (root : Names) (taskText reviewId line : String)
  | applyReview (reviewId line : String) (failing : Option String)
  | rejectReview (reviewId reason line : String)
  /-- Others change files. -/
  | edit (files : FileMap)

def reviewing (host : Host) : Machine World Call Answer where
  step w call :=
    match call with
    | .runCodeEditReviewTask root taskText reviewId line =>
      runCodeEditReviewTask host w root taskText reviewId line
    | .applyReview reviewId line failing => applyReview host w reviewId line failing
    | .rejectReview reviewId reason line => rejectReview host w reviewId reason line
    | .edit files => (.edited, { w with files := files })

/-- The review ids that are given out are new. -/
def Fresh (w : World) : Call → Prop
  | .runCodeEditReviewTask _ _ reviewId _ => w.reviews.get? reviewId = none
  | _ => True

end Reviews
end ZeroRuntime
