import Llamenos.Lib.Runs
import Llamenos.Lib.Tables

/-!
# Shift requests

`ShiftRequestsService` of `apps/worker/services/shift-requests.ts`, over `shift_join_requests`,
`shifts` and `ring_group_members`: volunteers ask to join or to leave a shift, and an admin approves
or rejects.

A call reads the request, and goes on from what it has read, one statement after the other, while
others do the same. An approval changes the shift first, and the request's status after that. The
volunteers of a shift that has a ring group are the group's members, each a row of its own; those of
another shift are an array, which an approval reads and writes as a whole. A request's status is
stored with `WHERE id = …` alone.

Requests do not expire, and approvals write no overrides.

Results:
* `resume_requests`: what a statement does to the requests.
* `step_sound`: what a call under way has read.
* `update_volunteers`: what an array that is written does to a shift's volunteers.
* `step_kept`, `requests_iff`: **each request leaves `pending` once, and the volunteers are as the
  approvals have left them, exactly if each call finds what it writes as it has read it**.
* `both_joins`: two approvals on one shift, and two calls on one request.
-/

namespace Llamenos.Worker.ShiftRequests

open Llamenos.Lib

/-! ## The tables -/

inductive RequestType where
  | join
  | leave
  deriving DecidableEq

inductive RequestStatus where
  | pending
  | approved
  | rejected
  | cancelled
  deriving DecidableEq

def RequestStatus.text : RequestStatus → String
  | .pending => "pending"
  | .approved => "approved"
  | .rejected => "rejected"
  | .cancelled => "cancelled"

/-- A row of `shift_join_requests`. -/
structure Request where
  id : String
  hubId : String
  shiftId : String
  userPubkey : String
  type : RequestType
  status : RequestStatus := .pending
  reviewedBy : Option String := none
  reviewedAt : Option Int := none

/-- A row of `shifts`, without its `id`. -/
structure Shift where
  hubId : Option String
  ringGroupId : Option String := none
  userPubkeys : List String := []

/-- A row of `ring_group_members`. -/
structure RingGroupMember where
  ringGroupId : String
  userPubkey : String
  addedBy : String

structure Db where
  requests : List Request := []
  shifts : String → Option Shift := fun _ => none
  ringGroupMembers : List RingGroupMember := []

/-- Where the volunteers of a shift are: in its own array, or in a ring group. -/
inductive Place where
  | shift (shiftId : String)
  | ringGroup (ringGroupId : String)
  deriving DecidableEq

/-- `if (shift.ringGroupId)`. -/
def Shift.place (shift : Shift) (shiftId : String) : Place :=
  match shift.ringGroupId with
  | some ringGroupId => if ringGroupId = "" then .shift shiftId else .ringGroup ringGroupId
  | none => .shift shiftId

def isVolunteer (db : Db) (place : Place) (userPubkey : String) : Bool :=
  match place with
  | .shift shiftId => (db.shifts shiftId).any (·.userPubkeys.contains userPubkey)
  | .ringGroup ringGroupId => db.ringGroupMembers.any fun row =>
      row.ringGroupId = ringGroupId ∧ row.userPubkey = userPubkey

/-- The request of the primary key. -/
def Db.request (db : Db) (requestId : String) : Option Request :=
  Tables.lookup Request.id db.requests requestId

/-- `UPDATE shift_join_requests SET … WHERE id = …`. -/
def updateRequest (db : Db) (requestId : String) (set : Request → Request) : Db :=
  { db with requests := db.requests.map fun row => if row.id = requestId then set row else row }

/-- `UPDATE shifts SET user_pubkeys = … WHERE id = …`. -/
def updateShift (db : Db) (shiftId : String) (userPubkeys : List String) : Db :=
  { db with
    shifts := Function.update db.shifts shiftId
      ((db.shifts shiftId).map fun row => { row with userPubkeys }) }

/-- The `INSERT`, with `ON CONFLICT DO NOTHING`. -/
def insertMember (db : Db) (row : RingGroupMember) : Db :=
  if isVolunteer db (.ringGroup row.ringGroupId) row.userPubkey then db
  else { db with ringGroupMembers := db.ringGroupMembers ++ [row] }

def deleteMember (db : Db) (ringGroupId userPubkey : String) : Db :=
  { db with
    ringGroupMembers := db.ringGroupMembers.filter fun row =>
      ¬ (row.ringGroupId = ringGroupId ∧ row.userPubkey = userPubkey) }

/-! ## Calls and their statements -/

structure CreateRequestInput where
  shiftId : String
  userPubkey : String
  type : String

inductive Op where
  | create (hubId : String) (data : CreateRequestInput)
  | approve (hubId requestId reviewedBy : String)
  | reject (hubId requestId reviewedBy : String)
  | cancel (hubId requestId userPubkey : String)

/-- The next statement of a call, with what the call has read before. -/
inductive Task where
  | createPending (hubId shiftId userPubkey : String) (type : RequestType)
  | createInsert (hubId shiftId userPubkey : String) (type : RequestType)
  | approveShift (requestId : String) (request : Request) (reviewedBy : String)
  | approveInsert (requestId : String) (request : Request) (reviewedBy ringGroupId : String)
  | approveDelete (requestId : String) (request : Request) (reviewedBy ringGroupId : String)
  | approveUpdate (requestId : String) (request : Request) (reviewedBy : String)
      (userPubkeys : List String)
  | approveStore (requestId : String) (request : Request) (reviewedBy : String)
  | rejectStore (requestId reviewedBy : String)
  | cancelStore (requestId : String)

inductive Reply where
  | request (row : Option Request)
  | ok
  | serviceError (status : Nat) (message : String)
  /-- An error of the database. -/
  | database

/-- A call goes on, or is over. -/
inductive Progress where
  | more (task : Task)
  | done (reply : Reply)

/-- `throw new ServiceError(status, message)`. -/
def throws (status : Nat) (message : String) : Progress := .done (.serviceError status message)

def requestType? (type : String) : Option RequestType :=
  if type = "join" then some .join else if type = "leave" then some .leave else none

/-- `create`, with its `SELECT` of the shift. -/
def create (db : Db) (hubId : String) (data : CreateRequestInput) : Progress :=
  if data.shiftId = "" then throws 400 "shiftId is required"
  else if data.userPubkey = "" then throws 400 "userPubkey is required"
  else match requestType? data.type with
    | none => throws 400 "type must be 'join' or 'leave'"
    | some type =>
      if (db.shifts data.shiftId).any (·.hubId = some hubId) then
        .more (.createPending hubId data.shiftId data.userPubkey type)
      else throws 404 "Shift not found"

/-- `get`: the `SELECT` that `approve` and `reject` begin with. -/
def get (db : Db) (hubId requestId : String) : Option Request :=
  (db.request requestId).filter (·.hubId = hubId)

/-- What `approve` and `reject` go on with, if the request is pending. -/
def review (db : Db) (hubId requestId : String) (next : Request → Task) : Progress :=
  match get db hubId requestId with
  | none => throws 404 "Shift request not found"
  | some request =>
    if request.status ≠ .pending then throws 400 s!"Request is already {request.status.text}"
    else .more (next request)

def cancel (db : Db) (hubId requestId userPubkey : String) : Progress :=
  match (get db hubId requestId).filter (·.userPubkey = userPubkey) with
  | none => throws 404 "Request not found"
  | some request =>
    if request.status ≠ .pending then throws 400 "Can only cancel pending requests"
    else .more (.cancelStore requestId)

/-- A call, with its first `SELECT`. -/
def call (db : Db) : Op → Progress
  | .create hubId data => create db hubId data
  | .approve hubId requestId reviewedBy =>
    review db hubId requestId (.approveShift requestId · reviewedBy)
  | .reject hubId requestId reviewedBy =>
    review db hubId requestId fun _ => .rejectStore requestId reviewedBy
  | .cancel hubId requestId userPubkey => cancel db hubId requestId userPubkey

/-- `applyApproval` between its `SELECT` of the shift and its write. -/
def applyApproval (requestId : String) (request : Request) (reviewedBy : String) (shift : Shift) :
    Task :=
  match request.type, shift.place request.shiftId with
  | .join, .ringGroup ringGroupId => .approveInsert requestId request reviewedBy ringGroupId
  | .leave, .ringGroup ringGroupId => .approveDelete requestId request reviewedBy ringGroupId
  | .join, .shift _ =>
    if shift.userPubkeys.contains request.userPubkey then
      .approveStore requestId request reviewedBy
    else .approveUpdate requestId request reviewedBy (shift.userPubkeys ++ [request.userPubkey])
  | .leave, .shift _ =>
    .approveUpdate requestId request reviewedBy
      (shift.userPubkeys.filter fun pk => pk ≠ request.userPubkey)

/-- A statement of a call, after its first: the tables after it, and how the call goes on. `id` is a
new UUID. -/
def resume (db : Db) (now : Int) (id : String) : Task → Db × Progress
  | .createPending hubId shiftId userPubkey type =>
    if db.requests.any fun row => row.shiftId = shiftId ∧ row.userPubkey = userPubkey ∧
        row.type = type ∧ row.status = .pending then
      (db, throws 409 "A pending request already exists for this shift and user")
    else (db, .more (.createInsert hubId shiftId userPubkey type))
  | .createInsert hubId shiftId userPubkey type =>
    if (db.request id).isSome then (db, .done .database)
    else
      let row : Request := { id, hubId, shiftId, userPubkey, type }
      ({ db with requests := db.requests ++ [row] }, .done (.request (some row)))
  | .approveShift requestId request reviewedBy =>
    match db.shifts request.shiftId with
    | none => (db, throws 404 "Referenced shift not found")
    | some shift => (db, .more (applyApproval requestId request reviewedBy shift))
  | .approveInsert requestId request reviewedBy ringGroupId =>
    (insertMember db ⟨ringGroupId, request.userPubkey, reviewedBy⟩,
      .more (.approveStore requestId request reviewedBy))
  | .approveDelete requestId request reviewedBy ringGroupId =>
    (deleteMember db ringGroupId request.userPubkey,
      .more (.approveStore requestId request reviewedBy))
  | .approveUpdate requestId request reviewedBy userPubkeys =>
    (updateShift db request.shiftId userPubkeys,
      .more (.approveStore requestId request reviewedBy))
  | .approveStore requestId _ reviewedBy =>
    let db := updateRequest db requestId fun row => { row with
      status := .approved, reviewedBy := some reviewedBy, reviewedAt := some now }
    (db, .done (.request (db.request requestId)))
  | .rejectStore requestId reviewedBy =>
    let db := updateRequest db requestId fun row => { row with
      status := .rejected, reviewedBy := some reviewedBy, reviewedAt := some now }
    (db, .done (.request (db.request requestId)))
  | .cancelStore requestId =>
    (updateRequest db requestId fun row => { row with status := .cancelled }, .done .ok)

/-! ## Runs -/

structure System where
  db : Db
  tasks : Nat → Option Task := fun _ => none

/-- The tables as they are, and no call under way. -/
def start (db : Db) : System := { db }

inductive Event where
  | call (task : Nat) (op : Op)
  | resume (task : Nat) (now : Int) (id : String)

/-- The task that a call goes on with. -/
def Progress.task : Progress → Option Task
  | .more task => some task
  | .done _ => none

def step (s : System) : Event → Option System
  | .call i op =>
    match s.tasks i with
    | some _ => none
    | none => some { s with tasks := Function.update s.tasks i (call s.db op).task }
  | .resume i now id =>
    match s.tasks i with
    | none => none
    | some task =>
      let after := resume s.db now id task
      some { db := after.1, tasks := Function.update s.tasks i after.2.task }

/-- What happens to requests: the volunteers of a place are to have the user of a request, or not to
have them any more; or a status is stored. -/
inductive Note where
  | applied (requestId : String) (place : Place) (userPubkey : String) (volunteers : Bool)
  | left (requestId : String) (status : RequestStatus)
  deriving DecidableEq

/-- What a statement does to requests. A volunteer who is there already joins when the shift is
read. -/
def Task.notes (db : Db) : Task → List Note
  | .approveShift requestId request _ =>
    match db.shifts request.shiftId with
    | some shift =>
      if request.type = .join ∧ shift.place request.shiftId = .shift request.shiftId ∧
          shift.userPubkeys.contains request.userPubkey then
        [.applied requestId (.shift request.shiftId) request.userPubkey true]
      else []
    | none => []
  | .approveInsert requestId request _ ringGroupId =>
    [.applied requestId (.ringGroup ringGroupId) request.userPubkey true]
  | .approveDelete requestId request _ ringGroupId =>
    [.applied requestId (.ringGroup ringGroupId) request.userPubkey false]
  | .approveUpdate requestId request _ _ =>
    [.applied requestId (.shift request.shiftId) request.userPubkey (request.type = .join)]
  | .approveStore requestId _ _ => [.left requestId .approved]
  | .rejectStore requestId _ => [.left requestId .rejected]
  | .cancelStore requestId => [.left requestId .cancelled]
  | .createPending .. | .createInsert .. => []

def notes (s : System) : Event → List Note
  | .resume i _ _ => (s.tasks i).elim [] (Task.notes s.db)
  | .call _ _ => []

/-! ## What is to be kept -/

/-- What the note says about a user at a place. -/
def Note.volunteers (place : Place) (userPubkey : String) : Note → Option Bool
  | .applied _ at' user volunteers =>
    if at' = place ∧ user = userPubkey then some volunteers else none
  | .left .. => none

/-- What the approvals say about a user at a place, the last one first. -/
def after (ns : List Note) (place : Place) (userPubkey : String) : Option Bool :=
  (ns.filterMap (·.volunteers place userPubkey)).getLast?

def Note.leaves : Note → Option String
  | .applied .. => none
  | .left requestId _ => some requestId

/-- The requests that a status has been stored for, as often as that was done. -/
def leftIds (ns : List Note) : List String := ns.filterMap Note.leaves

def placeOf (db : Db) (shiftId : String) : Option Place :=
  (db.shifts shiftId).map (·.place shiftId)

/-- The volunteers have been changed for the request. -/
def Applied (db : Db) (ns : List Note) (requestId : String) (request : Request) : Prop :=
  ∃ place, placeOf db request.shiftId = some place ∧
    .applied requestId place request.userPubkey (request.type = .join) ∈ ns

/-- Each request leaves `pending` once, something has been done for each that is approved, and the
volunteers are as the approvals leave them. -/
structure Kept (db₀ : Db) (s : System) (ns : List Note) : Prop where
  once : (leftIds ns).Nodup
  effect : ∀ requestId row, s.db.request requestId = some row → row.status = .approved →
    (db₀.request requestId).any (·.status = .approved) ∨ Applied s.db ns requestId row
  volunteers : ∀ place userPubkey, isVolunteer s.db place userPubkey =
    (after ns place userPubkey).getD (isVolunteer db₀ place userPubkey)

theorem after_append (ns ms : List Note) (place : Place) (userPubkey : String) :
    after (ns ++ ms) place userPubkey =
      (after ms place userPubkey).or (after ns place userPubkey) := by
  rw [after, List.filterMap_append, List.getLast?_append]
  rfl

theorem leftIds_append (ns ms : List Note) : leftIds (ns ++ ms) = leftIds ns ++ leftIds ms :=
  List.filterMap_append

theorem mem_leftIds {ns : List Note} {requestId : String} :
    requestId ∈ leftIds ns ↔ ∃ status, .left requestId status ∈ ns := by
  simp only [leftIds, List.mem_filterMap]
  constructor
  · rintro ⟨note, hnote, hleaves⟩
    cases note with
    | applied _ _ _ _ => cases hleaves
    | left id status =>
      obtain rfl := Option.some.inj hleaves
      exact ⟨status, hnote⟩
  · rintro ⟨status, hnote⟩
    exact ⟨_, hnote, rfl⟩

theorem Applied.mono {db db' : Db} {ns ms : List Note} {requestId : String}
    {request request' : Request} (h : Applied db ns requestId request)
    (hplaces : placeOf db' = placeOf db) (hshift : request'.shiftId = request.shiftId)
    (huser : request'.userPubkey = request.userPubkey) (htype : request'.type = request.type) :
    Applied db' (ns ++ ms) requestId request' := by
  obtain ⟨place, hplace, hnote⟩ := h
  refine ⟨place, ?_, ?_⟩
  · rw [hplaces, hshift, hplace]
  · rw [huser, htype]
    exact List.mem_append_left ms hnote

/-! ## What statements do -/

section Statements

variable {db : Db} {now : Int} {id : String} {task : Task}

theorem updateRequest_request {set : Request → Request} (hset : ∀ row, (set row).id = row.id)
    (db : Db) (requestId : String) :
    (updateRequest db requestId set).request =
      Function.update db.request requestId ((db.request requestId).map set) :=
  Tables.lookup_set hset

/-- To read the shift stores no status. -/
theorem approveShift_leftIds (db : Db) (requestId : String) (request : Request)
    (reviewedBy : String) :
    leftIds ((Task.approveShift requestId request reviewedBy).notes db) = [] := by
  rw [Task.notes]
  split
  · split_ifs <;> rfl
  · rfl

/-- **A statement leaves the requests alone, adds a pending one, or stores a status.** -/
theorem resume_requests (db : Db) (now : Int) (id : String) (task : Task) :
    ((resume db now id task).1.request = db.request ∧ leftIds (task.notes db) = []) ∨
    (∃ row : Request, db.request id = none ∧ row.status = .pending ∧
      (resume db now id task).1.request = Function.update db.request id (some row) ∧
      leftIds (task.notes db) = []) ∨
    ∃ requestId status set, task.notes db = [.left requestId status] ∧ status ≠ .pending ∧
      (∀ row : Request, (set row).shiftId = row.shiftId ∧ (set row).userPubkey = row.userPubkey ∧
        (set row).type = row.type ∧ (set row).status = status) ∧
      (resume db now id task).1.request =
        Function.update db.request requestId ((db.request requestId).map set) := by
  cases task with
  | createPending hubId shiftId userPubkey type =>
    refine .inl ⟨?_, rfl⟩
    rw [resume]
    split_ifs <;> rfl
  | createInsert hubId shiftId userPubkey type =>
    rw [resume]
    split_ifs with hused
    · exact .inl ⟨rfl, rfl⟩
    · have hnew : db.request id = none := by simpa using hused
      exact .inr (.inl ⟨_, hnew, rfl, Tables.lookup_concat hnew, rfl⟩)
  | approveShift requestId request reviewedBy =>
    refine .inl ⟨?_, approveShift_leftIds db requestId request reviewedBy⟩
    rw [resume]
    split <;> rfl
  | approveInsert requestId request reviewedBy ringGroupId =>
    refine .inl ⟨?_, rfl⟩
    rw [resume, insertMember]
    split_ifs <;> rfl
  | approveDelete requestId request reviewedBy ringGroupId => exact .inl ⟨rfl, rfl⟩
  | approveUpdate requestId request reviewedBy userPubkeys => exact .inl ⟨rfl, rfl⟩
  | approveStore requestId request reviewedBy =>
    refine .inr (.inr ⟨requestId, .approved, fun row => { row with
      status := .approved, reviewedBy := some reviewedBy, reviewedAt := some now },
      rfl, (by decide), (fun _ => ⟨rfl, rfl, rfl, rfl⟩), ?_⟩)
    refine updateRequest_request (fun row => ?_) db requestId
    rfl
  | rejectStore requestId reviewedBy =>
    refine .inr (.inr ⟨requestId, .rejected, fun row => { row with
      status := .rejected, reviewedBy := some reviewedBy, reviewedAt := some now },
      rfl, (by decide), (fun _ => ⟨rfl, rfl, rfl, rfl⟩), ?_⟩)
    refine updateRequest_request (fun row => ?_) db requestId
    rfl
  | cancelStore requestId =>
    refine .inr (.inr ⟨requestId, .cancelled, fun row => { row with status := .cancelled }, rfl,
      (by decide), (fun _ => ⟨rfl, rfl, rfl, rfl⟩), ?_⟩)
    refine updateRequest_request (fun row => ?_) db requestId
    rfl

/-- The volunteers of a shift stay where they are. -/
theorem resume_places (db : Db) (now : Int) (id : String) (task : Task) :
    placeOf (resume db now id task).1 = placeOf db := by
  cases task with
  | createPending hubId shiftId userPubkey type => rw [resume]; split_ifs <;> rfl
  | createInsert hubId shiftId userPubkey type => rw [resume]; split_ifs <;> rfl
  | approveShift requestId request reviewedBy => rw [resume]; split <;> rfl
  | approveInsert requestId request reviewedBy ringGroupId =>
    rw [resume, insertMember]
    split_ifs <;> rfl
  | approveUpdate requestId request reviewedBy userPubkeys =>
    funext shiftId
    simp only [resume, placeOf, updateShift]
    by_cases hshift : shiftId = request.shiftId
    · rw [hshift, Function.update_self, Option.map_map]
      rfl
    · rw [Function.update_of_ne hshift]
  | _ => rfl

variable {requestId : String}

/-- Each request that was there is still, for the same user, shift and type. Its status is another
one exactly if it has been stored. -/
theorem resume_row (now : Int) (id : String) (task : Task) {row : Request}
    (h : db.request requestId = some row) :
    ∃ row', (resume db now id task).1.request requestId = some row' ∧
      row'.shiftId = row.shiftId ∧ row'.userPubkey = row.userPubkey ∧ row'.type = row.type ∧
      ((row'.status = row.status ∧ requestId ∉ leftIds (task.notes db)) ∨
        (row'.status ≠ .pending ∧ requestId ∈ leftIds (task.notes db))) := by
  rcases resume_requests db now id task with
    ⟨hsame, hnone⟩ | ⟨new, hfree, -, hnew, hnone⟩ | ⟨k, status, set, hnotes, hstatus, hset, hstored⟩
  · rw [hsame, hnone]
    exact ⟨row, h, rfl, rfl, rfl, .inl ⟨rfl, List.not_mem_nil⟩⟩
  · have hother : requestId ≠ id := fun heq => by
      rw [heq, hfree] at h
      cases h
    rw [hnew, hnone, Function.update_of_ne hother]
    exact ⟨row, h, rfl, rfl, rfl, .inl ⟨rfl, List.not_mem_nil⟩⟩
  · rw [hstored, hnotes]
    by_cases hk : requestId = k
    · obtain ⟨hshift, huser, htype, hstored'⟩ := hset row
      subst hk
      refine ⟨set row, ?_, hshift, huser, htype, .inr ⟨hstored' ▸ hstatus, ?_⟩⟩
      · rw [Function.update_self, h, Option.map_some]
      · exact List.mem_singleton_self _
    · rw [Function.update_of_ne hk]
      exact ⟨row, h, rfl, rfl, rfl, .inl ⟨rfl, (List.mem_singleton.not.mpr hk)⟩⟩

/-- A request that has been approved by a statement was so before, or the statement stores it. -/
theorem resume_approved {row' : Request}
    (h : (resume db now id task).1.request requestId = some row')
    (happroved : row'.status = .approved) :
    (∃ row, db.request requestId = some row ∧ row.status = .approved) ∨
      .left requestId .approved ∈ task.notes db := by
  rcases resume_requests db now id task with
    ⟨hsame, -⟩ | ⟨new, -, hpending, hnew, -⟩ | ⟨k, status, set, hnotes, -, hset, hstored⟩
  · rw [hsame] at h
    exact .inl ⟨row', h, happroved⟩
  · rw [hnew] at h
    rcases Runs.update_eq_some h with ⟨-, hrow⟩ | ⟨-, hrow⟩
    · obtain rfl := Option.some.inj hrow
      rw [hpending] at happroved
      cases happroved
    · exact .inl ⟨row', hrow, happroved⟩
  · rw [hstored] at h
    rcases Runs.update_eq_some h with ⟨rfl, hrow⟩ | ⟨-, hrow⟩
    · obtain ⟨row, -, rfl⟩ := Option.map_eq_some_iff.mp hrow
      rw [(hset row).2.2.2] at happroved
      rw [hnotes, happroved]
      exact .inr (List.mem_singleton_self _)
    · exact .inl ⟨row', hrow, happroved⟩

/-- A request that is pending was so before, or it is new. Nothing has been stored for it now. -/
theorem resume_pending {row' : Request}
    (h : (resume db now id task).1.request requestId = some row')
    (hpending : row'.status = .pending) :
    requestId ∉ leftIds (task.notes db) ∧
      ((∃ row, db.request requestId = some row ∧ row.status = .pending) ∨
        db.request requestId = none) := by
  rcases resume_requests db now id task with
    ⟨hsame, hnone⟩ | ⟨new, hfree, -, hnew, hnone⟩ | ⟨k, status, set, hnotes, hstatus, hset, hstored⟩
  · rw [hsame] at h
    rw [hnone]
    exact ⟨List.not_mem_nil, .inl ⟨row', h, hpending⟩⟩
  · rw [hnew] at h
    rw [hnone]
    refine ⟨List.not_mem_nil, ?_⟩
    rcases Runs.update_eq_some h with ⟨rfl, -⟩ | ⟨-, hrow⟩
    · exact .inr hfree
    · exact .inl ⟨row', hrow, hpending⟩
  · rw [hstored] at h
    rw [hnotes]
    rcases Runs.update_eq_some h with ⟨rfl, hrow⟩ | ⟨hother, hrow⟩
    · obtain ⟨row, -, rfl⟩ := Option.map_eq_some_iff.mp hrow
      exact absurd ((hset row).2.2.2.symm.trans hpending) hstatus
    · exact ⟨List.mem_singleton.not.mpr hother, .inl ⟨row', hrow, hpending⟩⟩

/-! ## What a call under way has read -/

/-- The request that a call has read is still there, pending or decided since. -/
def Seen (db : Db) (ns : List Note) (requestId : String) (request : Request) : Prop :=
  ∃ row, db.request requestId = some row ∧ row.shiftId = request.shiftId ∧
    row.userPubkey = request.userPubkey ∧ row.type = request.type ∧
    (row.status = .pending ∨ requestId ∈ leftIds ns)

def Task.Sound (db : Db) (ns : List Note) : Task → Prop
  | .createPending .. | .createInsert .. => True
  | .approveShift requestId request _ => Seen db ns requestId request
  | .approveInsert requestId request _ ringGroupId =>
    Seen db ns requestId request ∧ request.type = .join ∧
      placeOf db request.shiftId = some (.ringGroup ringGroupId)
  | .approveDelete requestId request _ ringGroupId =>
    Seen db ns requestId request ∧ request.type = .leave ∧
      placeOf db request.shiftId = some (.ringGroup ringGroupId)
  | .approveUpdate requestId request _ userPubkeys =>
    Seen db ns requestId request ∧ placeOf db request.shiftId = some (.shift request.shiftId) ∧
      (request.userPubkey ∈ userPubkeys ↔ request.type = .join)
  | .approveStore requestId request _ =>
    Seen db ns requestId request ∧ Applied db ns requestId request
  | .rejectStore requestId _ | .cancelStore requestId => ∃ request, Seen db ns requestId request

structure Sound (s : System) (ns : List Note) : Prop where
  tasks : ∀ i task, s.tasks i = some task → task.Sound s.db ns
  pending : ∀ requestId row, s.db.request requestId = some row → row.status = .pending →
    requestId ∉ leftIds ns
  known : ∀ requestId ∈ leftIds ns, (s.db.request requestId).isSome

variable {ns : List Note}

theorem Seen.resume {request : Request} (h : Seen db ns requestId request)
    (now : Int) (id : String) (task : Task) :
    Seen (resume db now id task).1 (ns ++ task.notes db) requestId request := by
  obtain ⟨row, hrow, hshift, huser, htype, hstatus⟩ := h
  obtain ⟨row', hrow', hshift', huser', htype', hstatus'⟩ := resume_row now id task hrow
  refine ⟨row', hrow', hshift'.trans hshift, huser'.trans huser, htype'.trans htype, ?_⟩
  rw [leftIds_append, List.mem_append]
  rcases hstatus' with ⟨hsame, -⟩ | ⟨-, hleft⟩
  · rw [hsame]
    exact hstatus.imp_right .inl
  · exact .inr (.inr hleft)

/-- What a call has read stays so when another one goes on. -/
theorem Task.Sound.resume {task' : Task} (h : task'.Sound db ns) (now : Int) (id : String)
    (task : Task) : task'.Sound (resume db now id task).1 (ns ++ task.notes db) := by
  have hplaces := resume_places db now id task
  cases task' with
  | createPending _ _ _ _ => trivial
  | createInsert _ _ _ _ => trivial
  | approveShift requestId request reviewedBy => exact Seen.resume h now id task
  | approveInsert requestId request reviewedBy ringGroupId =>
    exact ⟨h.1.resume now id task, h.2.1, hplaces ▸ h.2.2⟩
  | approveDelete requestId request reviewedBy ringGroupId =>
    exact ⟨h.1.resume now id task, h.2.1, hplaces ▸ h.2.2⟩
  | approveUpdate requestId request reviewedBy userPubkeys =>
    exact ⟨h.1.resume now id task, hplaces ▸ h.2.1, h.2.2⟩
  | approveStore requestId request reviewedBy =>
    exact ⟨h.1.resume now id task, h.2.mono hplaces rfl rfl rfl⟩
  | rejectStore requestId reviewedBy =>
    obtain ⟨request, hseen⟩ := h
    exact ⟨request, hseen.resume now id task⟩
  | cancelStore requestId =>
    obtain ⟨request, hseen⟩ := h
    exact ⟨request, hseen.resume now id task⟩

theorem place_cases (shift : Shift) (shiftId : String) :
    shift.place shiftId = .shift shiftId ∨
      ∃ ringGroupId, shift.place shiftId = .ringGroup ringGroupId := by
  unfold Shift.place
  split
  · split_ifs
    · exact .inl rfl
    · exact .inr ⟨_, rfl⟩
  · exact .inl rfl

/-- What an approval is about to write has the user if the request is to join, and a volunteer who
is there already is noted. -/
theorem applyApproval_sound {requestId reviewedBy : String} {request : Request} {shift : Shift}
    (hseen : Seen db (ns ++ (Task.approveShift requestId request reviewedBy).notes db) requestId
      request)
    (hshift : db.shifts request.shiftId = some shift) :
    (applyApproval requestId request reviewedBy shift).Sound db
      (ns ++ (Task.approveShift requestId request reviewedBy).notes db) := by
  have hplaceOf : placeOf db request.shiftId = some (shift.place request.shiftId) := by
    rw [placeOf, hshift, Option.map_some]
  rcases place_cases shift request.shiftId with hplace | ⟨ringGroupId, hplace⟩ <;>
    rw [hplace] at hplaceOf
  · cases htype : request.type with
    | join =>
      simp only [applyApproval, htype, hplace]
      split_ifs with hthere
      · refine ⟨hseen, .shift request.shiftId, hplaceOf, List.mem_append_right _ ?_⟩
        simp only [Task.notes, hshift, htype, hplace, hthere, and_self, if_true, decide_true]
        exact List.mem_singleton_self _
      · refine ⟨hseen, hplaceOf, iff_of_true ?_ htype⟩
        exact List.mem_append_right _ (List.mem_singleton_self _)
    | leave =>
      simp only [applyApproval, htype, hplace]
      refine ⟨hseen, hplaceOf, iff_of_false (fun hmem => ?_) (by rw [htype]; decide)⟩
      exact absurd rfl (of_decide_eq_true (List.mem_filter.mp hmem).2)
  · cases htype : request.type with
    | join =>
      simp only [applyApproval, htype, hplace]
      exact ⟨hseen, htype, hplaceOf⟩
    | leave =>
      simp only [applyApproval, htype, hplace]
      exact ⟨hseen, htype, hplaceOf⟩

/-- **A call goes on with what it has read.** -/
theorem resume_sound {task' : Task} (h : task.Sound db ns)
    (hnext : (resume db now id task).2 = .more task') :
    task'.Sound (resume db now id task).1 (ns ++ task.notes db) := by
  cases task with
  | createPending hubId shiftId userPubkey type =>
    simp only [resume, throws] at hnext
    split_ifs at hnext
    obtain rfl := Progress.more.inj hnext
    trivial
  | createInsert hubId shiftId userPubkey type =>
    rw [resume] at hnext
    split_ifs at hnext
  | approveShift requestId request reviewedBy =>
    have hseen : Seen db ns requestId request := h
    have hseen' := hseen.resume now id (.approveShift requestId request reviewedBy)
    cases hshift : db.shifts request.shiftId with
    | none =>
      simp only [resume, hshift, throws] at hnext
      cases hnext
    | some shift =>
      simp only [resume, hshift] at hnext hseen' ⊢
      obtain rfl := Progress.more.inj hnext
      exact applyApproval_sound hseen' hshift
  | approveInsert requestId request reviewedBy ringGroupId =>
    have hplaces := resume_places db now id
      (.approveInsert requestId request reviewedBy ringGroupId)
    obtain rfl := Progress.more.inj hnext
    refine ⟨h.1.resume now id _, .ringGroup ringGroupId, hplaces ▸ h.2.2, ?_⟩
    rw [h.2.1]
    exact List.mem_append_right _ (List.mem_singleton_self _)
  | approveDelete requestId request reviewedBy ringGroupId =>
    have hplaces := resume_places db now id
      (.approveDelete requestId request reviewedBy ringGroupId)
    obtain rfl := Progress.more.inj hnext
    refine ⟨h.1.resume now id _, .ringGroup ringGroupId, hplaces ▸ h.2.2, ?_⟩
    rw [h.2.1]
    exact List.mem_append_right _ (List.mem_singleton_self _)
  | approveUpdate requestId request reviewedBy userPubkeys =>
    have hplaces := resume_places db now id
      (.approveUpdate requestId request reviewedBy userPubkeys)
    obtain rfl := Progress.more.inj hnext
    refine ⟨h.1.resume now id _, .shift request.shiftId, hplaces ▸ h.2.1, ?_⟩
    exact List.mem_append_right _ (List.mem_singleton_self _)
  | approveStore requestId request reviewedBy => cases hnext
  | rejectStore requestId reviewedBy => cases hnext
  | cancelStore requestId => cases hnext

/-- **A call begins with a request that is pending**, or with none. -/
theorem call_sound {op : Op} {task' : Task} (h : call db op = .more task') :
    task'.Sound db ns := by
  have hread : ∀ {hubId requestId : String} {request : Request},
      get db hubId requestId = some request → request.status = .pending →
        Seen db ns requestId request := by
    intro hubId requestId request hget hpending
    exact ⟨request, (Option.filter_eq_some_iff.mp hget).1, rfl, rfl, rfl, .inl hpending⟩
  cases op with
  | create hubId data =>
    simp only [call, create, throws] at h
    split_ifs at h
    · split at h
      · cases h
      · obtain rfl := Progress.more.inj h
        trivial
    · split at h <;> cases h
  | approve hubId requestId reviewedBy =>
    simp only [call, review, throws] at h
    split at h
    · cases h
    · rename_i request hget
      split_ifs at h with hpending
      obtain rfl := Progress.more.inj h
      exact hread hget (not_not.mp hpending)
  | reject hubId requestId reviewedBy =>
    simp only [call, review, throws] at h
    split at h
    · cases h
    · rename_i request hget
      split_ifs at h with hpending
      obtain rfl := Progress.more.inj h
      exact ⟨request, hread hget (not_not.mp hpending)⟩
  | cancel hubId requestId userPubkey =>
    simp only [call, cancel, throws] at h
    split at h
    · cases h
    · rename_i request hget
      split_ifs at h with hpending
      obtain rfl := Progress.more.inj h
      exact ⟨request, hread (Option.filter_eq_some_iff.mp hget).1 (not_not.mp hpending)⟩

end Statements

/-! ## Steps -/

section Steps

variable {s s' : System} {ns : List Note} {e : Event}

/-- **Everything a step does.** -/
theorem step_cases (h : step s e = some s') :
    (∃ i op, e = .call i op ∧ s.tasks i = none ∧ notes s e = [] ∧
      s' = { s with tasks := Function.update s.tasks i (call s.db op).task }) ∨
    ∃ i now id task, e = .resume i now id ∧ s.tasks i = some task ∧ notes s e = task.notes s.db ∧
      s' = { db := (resume s.db now id task).1,
             tasks := Function.update s.tasks i (resume s.db now id task).2.task } := by
  cases e with
  | call i op =>
    rw [step] at h
    cases hfree : s.tasks i with
    | some task => rw [hfree] at h; cases h
    | none =>
      rw [hfree] at h
      exact .inl ⟨i, op, rfl, hfree, rfl, (Option.some.inj h).symm⟩
  | resume i now id =>
    rw [step] at h
    cases htask : s.tasks i with
    | none => rw [htask] at h; cases h
    | some task =>
      rw [htask] at h
      refine .inr ⟨i, now, id, task, rfl, htask, ?_, (Option.some.inj h).symm⟩
      rw [notes, htask, Option.elim_some]

theorem Progress.task_eq_some {progress : Progress} {task : Task} (h : progress.task = some task) :
    progress = .more task := by
  cases progress with
  | more task' => exact Option.some.inj h ▸ rfl
  | done reply => cases h

/-- A status is stored by the last statement of a call. -/
theorem stores_of_left {db : Db} {task : Task} {requestId : String} {status : RequestStatus}
    (h : .left requestId status ∈ task.notes db) :
    (∃ request reviewedBy, task = .approveStore requestId request reviewedBy) ∨
      status ≠ .approved ∧
        ((∃ reviewedBy, task = .rejectStore requestId reviewedBy) ∨
          task = .cancelStore requestId) := by
  cases task with
  | approveShift id request reviewedBy =>
    rw [Task.notes] at h
    split at h
    · split_ifs at h
      · cases List.mem_singleton.mp h
      · cases h
    · cases h
  | approveStore id request reviewedBy =>
    cases List.mem_singleton.mp h
    exact .inl ⟨request, reviewedBy, rfl⟩
  | rejectStore id reviewedBy =>
    cases List.mem_singleton.mp h
    exact .inr ⟨(by decide), .inl ⟨reviewedBy, rfl⟩⟩
  | cancelStore id =>
    cases List.mem_singleton.mp h
    exact .inr ⟨(by decide), .inr rfl⟩
  | approveInsert _ _ _ _ => cases List.mem_singleton.mp h
  | approveDelete _ _ _ _ => cases List.mem_singleton.mp h
  | approveUpdate _ _ _ _ => cases List.mem_singleton.mp h
  | createPending _ _ _ _ => cases h
  | createInsert _ _ _ _ => cases h

/-- What a statement stores a status for is a request that has been read. -/
theorem Task.Sound.stores {db : Db} {task : Task} (h : task.Sound db ns) {requestId : String}
    (hleft : requestId ∈ leftIds (task.notes db)) : ∃ request, Seen db ns requestId request := by
  obtain ⟨status, hnote⟩ := mem_leftIds.mp hleft
  rcases stores_of_left hnote with ⟨request, reviewedBy, rfl⟩ | ⟨-, ⟨reviewedBy, rfl⟩ | rfl⟩
  · exact ⟨request, h.1⟩
  · exact h
  · exact h

theorem step_sound (hsound : Sound s ns) (h : step s e = some s') : Sound s' (ns ++ notes s e) := by
  rcases step_cases h with
    ⟨i, op, -, -, hnotes, rfl⟩ | ⟨i, now, id, task, -, htask, hnotes, rfl⟩
  · rw [hnotes, List.append_nil]
    refine ⟨fun j task' htask' => ?_, hsound.pending, hsound.known⟩
    rcases Runs.update_eq_some htask' with ⟨-, hnew⟩ | ⟨-, hold⟩
    · exact call_sound (Progress.task_eq_some hnew)
    · exact hsound.tasks j task' hold
  · rw [hnotes]
    have hown := hsound.tasks i task htask
    refine ⟨fun j task' htask' => ?_, fun requestId row hrow hpending => ?_,
      fun requestId hid => ?_⟩
    · rcases Runs.update_eq_some htask' with ⟨-, hnew⟩ | ⟨-, hold⟩
      · exact resume_sound hown (Progress.task_eq_some hnew)
      · exact (hsound.tasks j task' hold).resume now id task
    · obtain ⟨hnone, hbefore⟩ := resume_pending hrow hpending
      rw [leftIds_append, List.mem_append]
      rintro (hold | hnew)
      · rcases hbefore with ⟨row₀, hrow₀, hpending₀⟩ | hfree
        · exact hsound.pending requestId row₀ hrow₀ hpending₀ hold
        · have := hsound.known requestId hold
          rw [hfree] at this
          cases this
      · exact hnone hnew
    · rw [leftIds_append, List.mem_append] at hid
      obtain ⟨row, hrow⟩ : ∃ row, s.db.request requestId = some row := by
        rcases hid with hold | hnew
        · exact Option.isSome_iff_exists.mp (hsound.known requestId hold)
        · obtain ⟨request, row, hrow, -⟩ := hown.stores hnew
          exact ⟨row, hrow⟩
      obtain ⟨row', hrow', -⟩ := resume_row now id task hrow
      rw [hrow']
      rfl

end Steps

/-! ## The condition -/

/-- The two arrays have the same users, apart from one. -/
def SameOthers (userPubkey : String) (written stored : List String) : Prop :=
  ∀ user ∈ written ++ stored, user ≠ userPubkey → (user ∈ written ↔ user ∈ stored)

/-- An array that is written has the other users that the shift has now, and a request that a status
is stored for is pending still. -/
def Task.InTurn (db : Db) : Task → Prop
  | .approveUpdate _ request _ userPubkeys =>
    SameOthers request.userPubkey userPubkeys ((db.shifts request.shiftId).elim [] (·.userPubkeys))
  | .approveStore requestId _ _ | .rejectStore requestId _ | .cancelStore requestId =>
    (db.request requestId).any (·.status = .pending)
  | _ => True

def InTurn (s : System) : Event → Prop
  | .call _ _ => True
  | .resume i _ _ => ∀ task ∈ s.tasks i, task.InTurn s.db

instance (userPubkey : String) (written stored : List String) :
    Decidable (SameOthers userPubkey written stored) := by
  unfold SameOthers
  infer_instance

instance (db : Db) (task : Task) : Decidable (task.InTurn db) := by
  cases task <;> unfold Task.InTurn <;> infer_instance

instance (s : System) (e : Event) : Decidable (InTurn s e) := by
  cases e <;> unfold InTurn <;> infer_instance

theorem sameOthers_iff {userPubkey : String} {written stored : List String} :
    SameOthers userPubkey written stored ↔
      ∀ user, user ≠ userPubkey → (user ∈ written ↔ user ∈ stored) := by
  constructor
  · intro h user hother
    by_cases hmem : user ∈ written ++ stored
    · exact h user hmem hother
    · rw [List.mem_append, not_or] at hmem
      exact iff_of_false hmem.1 hmem.2
  · exact fun h user _ hother => h user hother

/-! ## The volunteers -/

section Volunteers

variable {db : Db} {now : Int} {id : String} {task : Task} {ns : List Note}

theorem after_applied (requestId : String) (place place' : Place) (userPubkey user : String)
    (volunteers : Bool) :
    after [.applied requestId place userPubkey volunteers] place' user =
      if place = place' ∧ userPubkey = user then some volunteers else none := by
  by_cases h : place = place' ∧ userPubkey = user <;> simp [after, Note.volunteers, h]

/-- The members of a ring group, with one more or one less. -/
theorem insertMember_volunteers (db : Db) (row : RingGroupMember) (place : Place) (user : String) :
    isVolunteer (insertMember db row) place user =
      if .ringGroup row.ringGroupId = place ∧ row.userPubkey = user then true
      else isVolunteer db place user := by
  rw [insertMember]
  by_cases hthere : isVolunteer db (.ringGroup row.ringGroupId) row.userPubkey = true
  · rw [if_pos hthere]
    split_ifs with hit
    · obtain ⟨rfl, rfl⟩ := hit
      exact hthere
    · rfl
  · rw [if_neg hthere]
    cases place with
    | shift shiftId => rfl
    | ringGroup ringGroupId =>
      simp only [isVolunteer, List.any_append, List.any_cons, List.any_nil, Bool.or_false,
        Place.ringGroup.injEq]
      split_ifs with hit
      · simp [hit]
      · simp [hit]

theorem deleteMember_volunteers (db : Db) (ringGroupId userPubkey : String) (place : Place)
    (user : String) :
    isVolunteer (deleteMember db ringGroupId userPubkey) place user =
      if .ringGroup ringGroupId = place ∧ userPubkey = user then false
      else isVolunteer db place user := by
  cases place with
  | shift shiftId => simp [isVolunteer, deleteMember]
  | ringGroup ringGroupId' =>
    simp only [isVolunteer, deleteMember, Place.ringGroup.injEq, List.any_filter]
    split_ifs with hit
    · obtain ⟨rfl, rfl⟩ := hit
      rw [List.any_eq_false]
      intro row _ h
      obtain ⟨hkept, hrow⟩ := Bool.and_eq_true_iff.mp h
      exact of_decide_eq_true hkept (of_decide_eq_true hrow)
    · rw [Bool.eq_iff_iff]
      simp only [List.any_eq_true, Bool.and_eq_true, decide_eq_true_eq]
      refine exists_congr fun row => and_congr_right fun _ => ?_
      constructor
      · exact fun h => h.2
      · rintro ⟨rfl, rfl⟩
        exact ⟨fun h => hit ⟨h.1.symm, h.2.symm⟩, rfl, rfl⟩

/-- A statement that writes no array leaves the volunteers as it notes. -/
theorem resume_volunteers
    (hwrites : ∀ requestId request reviewedBy userPubkeys,
      task ≠ .approveUpdate requestId request reviewedBy userPubkeys) (place : Place)
    (user : String) :
    isVolunteer (resume db now id task).1 place user =
      (after (task.notes db) place user).getD (isVolunteer db place user) := by
  cases task with
  | createPending hubId shiftId userPubkey type => rw [resume]; split_ifs <;> rfl
  | createInsert hubId shiftId userPubkey type => rw [resume]; split_ifs <;> cases place <;> rfl
  | approveShift requestId request reviewedBy =>
    cases hshift : db.shifts request.shiftId with
    | none =>
      simp only [resume, Task.notes, hshift]
      rfl
    | some shift =>
      simp only [resume, Task.notes, hshift]
      split_ifs with hthere
      · rw [after_applied]
        split_ifs with hit
        · obtain ⟨rfl, rfl⟩ := hit
          simp only [isVolunteer, hshift, Option.any_some, hthere.2.2, Option.getD_some]
        · rfl
      · rfl
  | approveInsert requestId request reviewedBy ringGroupId =>
    rw [resume, Task.notes, insertMember_volunteers, after_applied]
    split_ifs <;> rfl
  | approveDelete requestId request reviewedBy ringGroupId =>
    rw [resume, Task.notes, deleteMember_volunteers, after_applied]
    split_ifs <;> rfl
  | approveUpdate requestId request reviewedBy userPubkeys => exact absurd rfl (hwrites _ _ _ _)
  | approveStore requestId request reviewedBy => rfl
  | rejectStore requestId reviewedBy => rfl
  | cancelStore requestId => rfl

/-- **An array that is written leaves the volunteers as it is noted exactly if it has all the
others.** -/
theorem update_volunteers {requestId reviewedBy : String} {request : Request}
    {userPubkeys : List String}
    (hsound : (Task.approveUpdate requestId request reviewedBy userPubkeys).Sound db ns) :
    (∀ place user,
      isVolunteer (resume db now id (.approveUpdate requestId request reviewedBy userPubkeys)).1
          place user =
        (after ((Task.approveUpdate requestId request reviewedBy userPubkeys).notes db) place
          user).getD (isVolunteer db place user)) ↔
      (Task.approveUpdate requestId request reviewedBy userPubkeys).InTurn db := by
  obtain ⟨-, hplace, hown⟩ := hsound
  obtain ⟨shift, hshift, -⟩ := Option.map_eq_some_iff.mp hplace
  have hwritten : ∀ user, isVolunteer (updateShift db request.shiftId userPubkeys)
      (.shift request.shiftId) user = decide (user ∈ userPubkeys) := by
    intro user
    simp only [isVolunteer, updateShift, Function.update_self, hshift, Option.map_some,
      Option.any_some, List.contains_eq_mem]
  have hstored : ∀ user, isVolunteer db (.shift request.shiftId) user =
      decide (user ∈ shift.userPubkeys) := by
    intro user
    simp only [isVolunteer, hshift, Option.any_some, List.contains_eq_mem]
  rw [Task.InTurn, sameOthers_iff, hshift, Option.elim_some]
  simp only [resume, Task.notes, after_applied]
  constructor
  · intro h user hother
    have := h (.shift request.shiftId) user
    rw [if_neg fun hit => hother hit.2.symm, Option.getD_none, hwritten, hstored] at this
    exact decide_eq_decide.mp this
  · intro h place user
    by_cases hhere : .shift request.shiftId = place
    · subst hhere
      rw [hwritten, hstored]
      by_cases huser : request.userPubkey = user
      · rw [if_pos ⟨rfl, huser⟩, Option.getD_some, ← huser]
        exact decide_eq_decide.mpr hown
      · rw [if_neg fun hit => huser hit.2, Option.getD_none]
        exact decide_eq_decide.mpr (h user (Ne.symm huser))
    · rw [if_neg fun hit => hhere hit.1, Option.getD_none]
      cases place with
      | shift shiftId =>
        have hother : shiftId ≠ request.shiftId := fun heq => hhere (congrArg _ heq.symm)
        simp only [isVolunteer, updateShift, Function.update_of_ne hother]
      | ringGroup ringGroupId => rfl

end Volunteers

/-! ## Runs -/

section Runs

variable {db₀ : Db} {s s' : System} {ns : List Note} {e : Event}

theorem start_sound (db : Db) : Sound (start db) [] where
  tasks _ _ h := by cases h
  pending _ _ _ _ h := by cases h
  known _ h := by cases h

theorem start_kept (db : Db) : Kept db (start db) [] where
  once := List.nodup_nil
  effect requestId row hrow happroved := by
    refine .inl ?_
    rw [show db.request requestId = some row from hrow, Option.any_some]
    exact decide_eq_true happroved
  volunteers _ _ := rfl

/-- What is approved after a step has been done for. -/
theorem step_effect (hsound : Sound s ns) (hkept : Kept db₀ s ns) {now : Int} {id : String}
    {i : Nat} {task : Task} (htask : s.tasks i = some task) {requestId : String} {row' : Request}
    (hrow' : (resume s.db now id task).1.request requestId = some row')
    (happroved : row'.status = .approved) :
    (db₀.request requestId).any (·.status = .approved) ∨
      Applied (resume s.db now id task).1 (ns ++ task.notes s.db) requestId row' := by
  have hplaces := resume_places s.db now id task
  have hsame : ∀ row, s.db.request requestId = some row → row'.shiftId = row.shiftId ∧
      row'.userPubkey = row.userPubkey ∧ row'.type = row.type := by
    intro row hrow
    obtain ⟨row'', hrow'', hshift, huser, htype, -⟩ := resume_row now id task hrow
    obtain rfl := Option.some.inj (hrow'.symm.trans hrow'')
    exact ⟨hshift, huser, htype⟩
  rcases resume_approved hrow' happroved with ⟨row, hrow, hbefore⟩ | hstored
  · obtain ⟨hshift, huser, htype⟩ := hsame row hrow
    exact (hkept.effect requestId row hrow hbefore).imp_right fun happlied =>
      happlied.mono hplaces hshift huser htype
  · rcases stores_of_left hstored with ⟨request, reviewedBy, rfl⟩ | ⟨hother, -⟩
    · obtain ⟨⟨row, hrow, hshift, huser, htype, -⟩, happlied⟩ := hsound.tasks i _ htask
      obtain ⟨hshift', huser', htype'⟩ := hsame row hrow
      exact .inr (happlied.mono hplaces (hshift'.trans hshift) (huser'.trans huser)
        (htype'.trans htype))
    · exact absurd rfl hother

/-- The volunteers, after what has been noted in a step and before. -/
theorem volunteers_append {db db' : Db} {ms : List Note}
    (hbefore : ∀ place userPubkey, isVolunteer db place userPubkey =
      (after ns place userPubkey).getD (isVolunteer db₀ place userPubkey)) :
    (∀ place userPubkey, isVolunteer db' place userPubkey =
        (after (ns ++ ms) place userPubkey).getD (isVolunteer db₀ place userPubkey)) ↔
      ∀ place userPubkey, isVolunteer db' place userPubkey =
        (after ms place userPubkey).getD (isVolunteer db place userPubkey) := by
  refine forall₂_congr fun place userPubkey => ?_
  rw [after_append, hbefore]
  cases after ms place userPubkey <;> rfl

/-- A status that is stored is the request's first exactly if the request is pending. -/
theorem once_iff (hsound : Sound s ns) (honce : (leftIds ns).Nodup) {requestId : String}
    (hseen : ∃ request, Seen s.db ns requestId request) :
    (leftIds ns ++ [requestId]).Nodup ↔ (s.db.request requestId).any (·.status = .pending) := by
  obtain ⟨request, row, hrow, -, -, -, hstatus⟩ := hseen
  have hnodup : (leftIds ns ++ [requestId]).Nodup ↔ requestId ∉ leftIds ns := by
    rw [← List.concat_eq_append, List.nodup_concat]
    exact and_iff_left honce
  rw [hnodup, hrow, Option.any_some, decide_eq_true_iff]
  constructor
  · exact fun hnone => hstatus.resolve_right hnone
  · exact hsound.pending requestId row hrow

/-- **A step keeps everything exactly if it is in turn.** -/
theorem step_kept (hsound : Sound s ns) (hkept : Kept db₀ s ns) (h : step s e = some s') :
    Kept db₀ s' (ns ++ notes s e) ↔ InTurn s e := by
  rcases step_cases h with
    ⟨i, op, rfl, -, hnotes, rfl⟩ | ⟨i, now, id, task, rfl, htask, hnotes, rfl⟩
  · rw [hnotes, List.append_nil]
    exact iff_of_true ⟨hkept.once, hkept.effect, hkept.volunteers⟩ trivial
  · have hown := hsound.tasks i task htask
    have hturn : InTurn s (.resume i now id) ↔ task.InTurn s.db := by
      simp only [InTurn, htask, Option.mem_def, Option.some.injEq, forall_eq']
    have hiff : ∀ tasks, Kept db₀ { db := (resume s.db now id task).1, tasks }
          (ns ++ task.notes s.db) ↔
        (leftIds ns ++ leftIds (task.notes s.db)).Nodup ∧
          ∀ place userPubkey, isVolunteer (resume s.db now id task).1 place userPubkey =
            (after (task.notes s.db) place userPubkey).getD
              (isVolunteer s.db place userPubkey) := by
      intro tasks
      rw [← leftIds_append, ← volunteers_append hkept.volunteers]
      exact ⟨fun hk => ⟨hk.once, hk.volunteers⟩,
        fun hk => ⟨hk.1, fun _ _ => step_effect hsound hkept htask, hk.2⟩⟩
    rw [hnotes, hturn, hiff]
    have hstore : ∀ requestId, (∃ request, Seen s.db ns requestId request) →
        leftIds (task.notes s.db) = [requestId] →
        ((leftIds ns ++ leftIds (task.notes s.db)).Nodup ↔
          (s.db.request requestId).any (·.status = .pending)) := by
      intro requestId hseen hleft
      rw [hleft]
      exact once_iff hsound hkept.once hseen
    cases task with
    | approveUpdate requestId request reviewedBy userPubkeys =>
      rw [and_iff_right]
      · exact update_volunteers hown
      · exact (List.append_nil (leftIds ns)).symm ▸ hkept.once
    | approveStore requestId request reviewedBy =>
      rw [and_iff_left (resume_volunteers (fun _ _ _ _ h => by cases h))]
      exact hstore requestId ⟨request, hown.1⟩ rfl
    | rejectStore requestId reviewedBy =>
      rw [and_iff_left (resume_volunteers (fun _ _ _ _ h => by cases h))]
      exact hstore requestId hown rfl
    | cancelStore requestId =>
      rw [and_iff_left (resume_volunteers (fun _ _ _ _ h => by cases h))]
      exact hstore requestId hown rfl
    | approveShift requestId request reviewedBy =>
      refine iff_of_true ⟨?_, resume_volunteers (fun _ _ _ _ h => by cases h)⟩ trivial
      rw [approveShift_leftIds, List.append_nil]
      exact hkept.once
    | _ =>
      refine iff_of_true ⟨?_, resume_volunteers (fun _ _ _ _ h => by cases h)⟩ trivial
      exact (List.append_nil (leftIds ns)).symm ▸ hkept.once

/-- **Each request leaves `pending` once, and the volunteers are as the approvals have left them, at
every moment, exactly if each call finds what it writes as it has read it.** -/
theorem requests_iff {db : Db} {events : List Event} {t : System}
    (hrun : Runs.run step (start db) events = some t) :
    (∀ before after m, events = before ++ after → Runs.run step (start db) before = some m →
        Kept db m (Runs.emitted step notes (start db) before)) ↔
      Runs.Along step InTurn (start db) events :=
  Runs.always_iff_along notes (fun _ _ _ _ => step_sound) (fun _ _ _ _ => step_kept) []
    (start_sound db) (start_kept db) hrun

/-! Two volunteers ask to join a shift. -/

def sampleDb : Db where
  requests :=
    [{ id := "r1", hubId := "hub", shiftId := "shift", userPubkey := "ana", type := .join },
     { id := "r2", hubId := "hub", shiftId := "shift", userPubkey := "ben", type := .join }]
  shifts := Function.update (fun _ => none) "shift" (some { hubId := some "hub" })

/-- A call, with no other at the same time. -/
def inTurn (op : Op) (statements : Nat) : List Event :=
  .call 0 op :: List.replicate statements (.resume 0 0 "")

/-- One request after the other, and then one of the volunteers leaves. -/
def oneByOne : List Event :=
  inTurn (.approve "hub" "r1" "admin") 3 ++ inTurn (.approve "hub" "r2" "admin") 3 ++
    .call 0 (.create "hub" ⟨"shift", "ana", "leave"⟩) :: .resume 0 0 "" :: .resume 0 0 "r3" ::
      inTurn (.approve "hub" "r3" "admin") 3

theorem oneByOne_kept :
    (∃ t, Runs.run step (start sampleDb) oneByOne = some t ∧ t.tasks 0 = none ∧
      isVolunteer t.db (.shift "shift") "ben") ∧
    ∀ before after m, oneByOne = before ++ after →
      Runs.run step (start sampleDb) before = some m →
        Kept sampleDb m (Runs.emitted step notes (start sampleDb) before) := by
  have hsome : (Runs.run step (start sampleDb) oneByOne).isSome := by decide +kernel
  obtain ⟨t, ht⟩ := Option.isSome_iff_exists.mp hsome
  have hend : (Runs.run step (start sampleDb) oneByOne).all fun t =>
      t.tasks 0 = none ∧ isVolunteer t.db (.shift "shift") "ben" := by decide +kernel
  refine ⟨⟨t, ht, ?_⟩, (requests_iff ht).mpr (by decide +kernel)⟩
  rw [ht] at hend
  exact of_decide_eq_true hend

/-- Both approvals have read the shift before either writes it. -/
def overlapping : List Event :=
  [.call 1 (.approve "hub" "r1" "admin"), .call 2 (.approve "hub" "r2" "admin"), .resume 1 0 "",
   .resume 2 0 "", .resume 1 0 "", .resume 2 0 "", .resume 1 0 "", .resume 2 0 ""]

/-- The request is cancelled by a call that has read it before it is approved. -/
def cancelledLate : List Event :=
  .call 2 (.cancel "hub" "r1" "ana") :: inTurn (.approve "hub" "r1" "admin") 3 ++ [.resume 2 0 ""]

/-- **Both requests are approved, and one of the volunteers is lost.** An approved request is
cancelled. -/
theorem both_joins :
    ((Runs.run step (start sampleDb) overlapping).map fun t =>
        ((t.db.requests.map Request.status), isVolunteer t.db (.shift "shift") "ana",
          isVolunteer t.db (.shift "shift") "ben")) =
      some ([.approved, .approved], false, true) ∧
    ((Runs.run step (start sampleDb) cancelledLate).map fun t =>
        ((t.db.requests.map Request.status), isVolunteer t.db (.shift "shift") "ana")) =
      some ([.cancelled, .pending], true) ∧
    Runs.emitted step notes (start sampleDb) cancelledLate =
      [.applied "r1" (.shift "shift") "ana" true, .left "r1" .approved, .left "r1" .cancelled] := by
  decide +kernel

end Runs

end Llamenos.Worker.ShiftRequests
