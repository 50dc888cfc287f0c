/-!
The kinds of packet, their codes and protocol names, and what the protocol says of each: which
requests a job server answers and with what, which ones submit a job, and which responses tell a
client about a job of its own.
-/

namespace Gearman

/-- The priority of a submitted job. -/
inductive Priority where
  | low | normal | high
deriving DecidableEq, Repr, Inhabited

namespace Priority

/-- The priority of a job that asks for none. -/
def usual : Priority := .normal

def all : List Priority := [.low, .normal, .high]

/-- The name of a priority in a settings document. -/
def name : Priority → String
  | .low => "low"
  | .normal => "normal"
  | .high => "high"

end Priority

/-- The kind of a packet. -/
inductive Kind where
  | canDo | cantDo | resetAbilities | preSleep | noop | submitJob | jobCreated | grabJob | noJob
  | jobAssign | workStatus | workComplete | workFail | getStatus | echoReq | echoRes
  | submitJobBg | error | statusRes | submitJobHigh | setClientId | canDoTimeout | allYours
  | workException | optionReq | optionRes | workData | workWarning | grabJobUniq | jobAssignUniq
  | submitJobHighBg | submitJobLow | submitJobLowBg | submitJobSched | submitJobEpoch
deriving DecidableEq, Repr, Inhabited

namespace Kind

/-- The code of a kind in a packet header. The code 5 is not in use. -/
def code : Kind → UInt32
  | .canDo => 1
  | .cantDo => 2
  | .resetAbilities => 3
  | .preSleep => 4
  | .noop => 6
  | .submitJob => 7
  | .jobCreated => 8
  | .grabJob => 9
  | .noJob => 10
  | .jobAssign => 11
  | .workStatus => 12
  | .workComplete => 13
  | .workFail => 14
  | .getStatus => 15
  | .echoReq => 16
  | .echoRes => 17
  | .submitJobBg => 18
  | .error => 19
  | .statusRes => 20
  | .submitJobHigh => 21
  | .setClientId => 22
  | .canDoTimeout => 23
  | .allYours => 24
  | .workException => 25
  | .optionReq => 26
  | .optionRes => 27
  | .workData => 28
  | .workWarning => 29
  | .grabJobUniq => 30
  | .jobAssignUniq => 31
  | .submitJobHighBg => 32
  | .submitJobLow => 33
  | .submitJobLowBg => 34
  | .submitJobSched => 35
  | .submitJobEpoch => 36

/-- Every kind, in the order of the codes. -/
def all : List Kind :=
  [.canDo, .cantDo, .resetAbilities, .preSleep, .noop, .submitJob, .jobCreated, .grabJob, .noJob,
   .jobAssign, .workStatus, .workComplete, .workFail, .getStatus, .echoReq, .echoRes,
   .submitJobBg, .error, .statusRes, .submitJobHigh, .setClientId, .canDoTimeout, .allYours,
   .workException, .optionReq, .optionRes, .workData, .workWarning, .grabJobUniq, .jobAssignUniq,
   .submitJobHighBg, .submitJobLow, .submitJobLowBg, .submitJobSched, .submitJobEpoch]

/-- The kind with this code, if the code is in use. -/
def ofCode? (code : UInt32) : Option Kind :=
  all.find? fun k => k.code = code

/-- The name that the protocol gives to a kind. -/
def name : Kind → String
  | .canDo => "CAN_DO"
  | .cantDo => "CANT_DO"
  | .resetAbilities => "RESET_ABILITIES"
  | .preSleep => "PRE_SLEEP"
  | .noop => "NOOP"
  | .submitJob => "SUBMIT_JOB"
  | .jobCreated => "JOB_CREATED"
  | .grabJob => "GRAB_JOB"
  | .noJob => "NO_JOB"
  | .jobAssign => "JOB_ASSIGN"
  | .workStatus => "WORK_STATUS"
  | .workComplete => "WORK_COMPLETE"
  | .workFail => "WORK_FAIL"
  | .getStatus => "GET_STATUS"
  | .echoReq => "ECHO_REQ"
  | .echoRes => "ECHO_RES"
  | .submitJobBg => "SUBMIT_JOB_BG"
  | .error => "ERROR"
  | .statusRes => "STATUS_RES"
  | .submitJobHigh => "SUBMIT_JOB_HIGH"
  | .setClientId => "SET_CLIENT_ID"
  | .canDoTimeout => "CAN_DO_TIMEOUT"
  | .allYours => "ALL_YOURS"
  | .workException => "WORK_EXCEPTION"
  | .optionReq => "OPTION_REQ"
  | .optionRes => "OPTION_RES"
  | .workData => "WORK_DATA"
  | .workWarning => "WORK_WARNING"
  | .grabJobUniq => "GRAB_JOB_UNIQ"
  | .jobAssignUniq => "JOB_ASSIGN_UNIQ"
  | .submitJobHighBg => "SUBMIT_JOB_HIGH_BG"
  | .submitJobLow => "SUBMIT_JOB_LOW"
  | .submitJobLowBg => "SUBMIT_JOB_LOW_BG"
  | .submitJobSched => "SUBMIT_JOB_SCHED"
  | .submitJobEpoch => "SUBMIT_JOB_EPOCH"

/-- The name as one word: each part of the protocol's name starts with a capital letter. -/
def title (k : Kind) : String :=
  String.ofList (go true k.name.toList)
where
  go (start : Bool) : List Char → List Char
    | [] => []
    | c :: rest =>
      if c = '_' then go true rest else (if start then c else c.toLower) :: go false rest

instance : ToString Kind where
  toString := name

/-- Whether a request of this kind submits a job. -/
def isSubmission : Kind → Bool
  | .submitJob | .submitJobBg | .submitJobHigh | .submitJobHighBg | .submitJobLow
  | .submitJobLowBg | .submitJobSched | .submitJobEpoch => true
  | _ => false

/-- Whether a submission leaves the client without further news of the job. -/
def isBackground : Kind → Bool
  | .submitJobBg | .submitJobHighBg | .submitJobLowBg | .submitJobSched | .submitJobEpoch => true
  | _ => false

/-- The priority that a submission asks for. -/
def priority? (k : Kind) : Option Priority :=
  match k with
  | .submitJobHigh | .submitJobHighBg => some .high
  | .submitJobLow | .submitJobLowBg => some .low
  | k => if k.isSubmission then some .normal else none

/-- The submission with a priority, in the background or not. -/
def submission (priority : Priority) (background : Bool) : Kind :=
  match priority, background with
  | .low, false => .submitJobLow
  | .low, true => .submitJobLowBg
  | .normal, false => .submitJob
  | .normal, true => .submitJobBg
  | .high, false => .submitJobHigh
  | .high, true => .submitJobHighBg

/-- Whether the job server answers a request of this kind. -/
def isAnswered (k : Kind) : Bool :=
  k.isSubmission ||
    match k with
    | .getStatus | .echoReq | .grabJob | .grabJobUniq | .preSleep | .optionReq => true
    | _ => false

/-- Whether a response of kind `k` answers a request of kind `request`. -/
def answers (k request : Kind) : Bool :=
  if request.isSubmission then k = .jobCreated
  else match request with
    | .getStatus => k = .statusRes
    | .echoReq => k = .echoRes
    | .grabJob | .grabJobUniq => k = .noJob || k = .jobAssign || k = .jobAssignUniq
    | .preSleep => k = .noop
    | .optionReq => k = .optionRes
    | _ => false

/-- Whether a response of this kind ends a job. -/
def isFinal : Kind → Bool
  | .workComplete | .workFail | .workException => true
  | _ => false

/-- Whether a response of this kind brings news of a job under its handle. -/
def isUpdate (k : Kind) : Bool :=
  k.isFinal ||
    match k with
    | .workStatus | .workData | .workWarning => true
    | _ => false

theorem mem_all (k : Kind) : k ∈ all := by
  cases k <;> decide

theorem code_injective {k l : Kind} (h : k.code = l.code) : k = l := by
  cases k <;> cases l <;> first | rfl | exact absurd h (by decide)

/-- Exactly the codes of the table are in use. -/
theorem ofCode?_eq_some_iff {code : UInt32} {k : Kind} : ofCode? code = some k ↔ k.code = code := by
  constructor
  · intro h
    simpa using List.find?_some h
  · rintro rfl
    have found : (all.find? fun l => l.code = k.code).isSome :=
      List.find?_isSome.2 ⟨k, mem_all k, by simp⟩
    obtain ⟨l, hl⟩ := Option.isSome_iff_exists.1 found
    rw [ofCode?, hl, code_injective (k := l) (l := k) (by simpa using List.find?_some hl)]

/-- News of a job answers no request. -/
theorem isUpdate_of_answers {k request : Kind} (h : k.answers request = true) :
    k.isUpdate = false := by
  cases k <;> first
    | rfl
    | cases request <;> contradiction

end Kind

end Gearman
