import ConsoleOnline.ExchangeKey
import ConsoleOnline.HostAddress
import ConsoleOnline.Ids
import ConsoleOnline.Session.Slots
import ConsoleOnline.SessionFlags

/-!
A multiplayer session: its identity, its state, the slots of both categories and the members that
hold some of them. Every operation changes the session in place and may be refused on the way, so
what a refused operation leaves behind is the session as far as it had come. `Op` lists the
operations, and `run` performs a number of them in turn.
-/
namespace ConsoleOnline

structure Member where
  xuid : Xuid
  category : SlotCategory
  deriving DecidableEq, Repr

structure Session where
  id : SessionId
  state : SessionState := .lobby
  flags : SessionFlags := {}
  host : HostAddress := {}
  key : ExchangeKey := {}
  hostUserIndex : UInt32 := 0
  gameType : UInt32 := 0
  gameMode : UInt32 := 0
  nonce : UInt64 := 0
  arbitrationId : SessionId := .absent
  publicSlots : Slots
  privateSlots : Slots
  members : List Member := []
  deriving DecidableEq, Repr

namespace Session

/-- A session in the lobby with all slots vacant. -/
def new (id : SessionId) (flags : SessionFlags) (maxPublic maxPrivate : UInt32) : Session :=
  { id, flags, publicSlots := .empty maxPublic, privateSlots := .empty maxPrivate }

def slots (s : Session) : SlotCategory → Slots
  | .publicSlot => s.publicSlots
  | .privateSlot => s.privateSlots

def withSlots (s : Session) (category : SlotCategory) (slots : Slots) : Session :=
  match category with
  | .publicSlot => { s with publicSlots := slots }
  | .privateSlot => { s with privateSlots := slots }

@[simp] theorem slots_withSlots (s : Session) (category other : SlotCategory) (slots : Slots) :
    (s.withSlots category slots).slots other = if other = category then slots else s.slots other := by
  cases category <;> cases other <;> rfl

@[simp] theorem members_withSlots (s : Session) (category : SlotCategory) (slots : Slots) :
    (s.withSlots category slots).members = s.members := by
  cases category <;> rfl

@[simp] theorem state_withSlots (s : Session) (category : SlotCategory) (slots : Slots) :
    (s.withSlots category slots).state = s.state := by
  cases category <;> rfl

@[simp] theorem flags_withSlots (s : Session) (category : SlotCategory) (slots : Slots) :
    (s.withSlots category slots).flags = s.flags := by
  cases category <;> rfl

@[simp] theorem arbitrationId_withSlots (s : Session) (category : SlotCategory) (slots : Slots) :
    (s.withSlots category slots).arbitrationId = s.arbitrationId := by
  cases category <;> rfl

@[simp] theorem withSlots_withSlots (s : Session) (category : SlotCategory) (x y : Slots) :
    (s.withSlots category x).withSlots category y = s.withSlots category y := by
  cases category <;> rfl

@[simp] theorem withSlots_slots (s : Session) (category : SlotCategory) :
    s.withSlots category (s.slots category) = s := by
  cases category <;> rfl

def membersOf (s : Session) (category : SlotCategory) : List Member :=
  s.members.filter fun m => m.category = category

/-- The number of members of a category, as far as a word holds it. -/
def memberCount (s : Session) (category : SlotCategory) : UInt32 :=
  .ofNat (min (UInt32.size - 1) (s.membersOf category).length)

/-! ### Builders -/

def withHost (host : HostAddress) (s : Session) : Session := { s with host }

def withKey (key : ExchangeKey) (s : Session) : Session := { s with key }

def withHostUserIndex (hostUserIndex : UInt32) (s : Session) : Session := { s with hostUserIndex }

def withGameType (gameType gameMode : UInt32) (s : Session) : Session :=
  { s with gameType, gameMode }

def withNonce (nonce : UInt64) (s : Session) : Session := { s with nonce }

/-! ### Life -/

/-- What is done to a session. It may be refused, and either way it leaves a session behind. -/
abbrev Action := EStateM OnlineError Session Unit

/-- The session that an action makes of another, where it is not refused. -/
def Action.result (a : Action) (s : Session) : Except OnlineError Session :=
  match a.run s with
  | .ok _ t => .ok t
  | .error e _ => .error e

theorem Action.result_eq_ok_iff {a : Action} {s t : Session} :
    a.result s = .ok t ↔ a.run s = .ok () t := by
  rw [result]
  cases a.run s <;> simp

def moveTo (next : SessionState) : Action := do
  let s ← get
  if s.state.allows next then set { s with state := next }
  else throw (.transition s.state next)

/-- Opens registration under the arbitration identifier that was handed out. -/
def register (arbitrationId : SessionId) : Action := do
  moveTo .registration
  modify fun s => { s with arbitrationId }

/-! ### Slots -/

/-- Sets the counters of a category without regard to members. -/
def writeCounts (category : SlotCategory) (vacant filled : UInt32) : Action := do
  let s ← get
  let slots ← ofExcept (Slots.withCounts category (s.slots category).max vacant filled)
  set (s.withSlots category slots)

/-- Sets the counters of a category. Its members hold filled slots, so there must be as many. -/
def setCounts (category : SlotCategory) (vacant filled : UInt32) : Action := do
  let s ← get
  if filled < s.memberCount category then
    throw (.slots (.belowMembers category filled (s.memberCount category)))
  else writeCounts category vacant filled

def fill (category : SlotCategory) (count : UInt32) : Action := do
  let s ← get
  let (vacant, filled) ← ofExcept ((s.slots category).taken category count)
  writeCounts category vacant filled

/-- Frees filled slots, but none that a member holds. -/
def release (category : SlotCategory) (count : UInt32) : Action := do
  let s ← get
  let (vacant, filled) ← ofExcept ((s.slots category).released category count)
  setCounts category vacant filled

/-- Adds members, each to a slot of its own. -/
def join (xuids : List Xuid) (category : SlotCategory) : Action :=
  if UInt32.size ≤ xuids.length then throw (.slots .joinTooLarge)
  else do
    fill category (.ofNat xuids.length)
    modify fun s => { s with members := s.members ++ xuids.map fun xuid => { xuid, category } }

/-- Frees the slots of a category that are held by the given number of leaving members. -/
def vacate (category : SlotCategory) (count : UInt32) : Action := do
  let s ← get
  let (vacant, filled) ← ofExcept ((s.slots category).released category count)
  writeCounts category vacant filled

/-- How many members of a category are among those who leave, as a word counts them. -/
def leaving (xuids : List Xuid) (category : SlotCategory) (s : Session) : UInt32 :=
  .ofNat ((s.membersOf category).countP fun m => m.xuid ∈ xuids)

/-- Removes every member with one of these identifiers and frees its slot. Others are not missed.
Where the slots of one category cannot be freed, those of the other are taken back. -/
def leave (xuids : List Xuid) : Action := do
  let s ← get
  try
    vacate .publicSlot (s.leaving xuids .publicSlot)
    vacate .privateSlot (s.leaving xuids .privateSlot)
  catch e =>
    modify fun t => { t with publicSlots := s.publicSlots, privateSlots := s.privateSlots }
    throw e
  modify fun t => { t with members := s.members.filter fun m => m.xuid ∉ xuids }

/-- Takes new flags and new maxima. Filled slots stay filled and all others become vacant. -/
def modify (flags : SessionFlags) (maxPublic maxPrivate : UInt32) : Action := do
  let s ← get
  let publicSlots ← ofExcept (s.publicSlots.rescale .publicSlot maxPublic)
  let privateSlots ← ofExcept (s.privateSlots.rescale .privateSlot maxPrivate)
  set { s with flags := s.flags.modified flags, publicSlots, privateSlots }

/-! ### Runs -/

inductive Op where
  | moveTo (next : SessionState)
  | register (arbitrationId : SessionId)
  | start
  | finish
  | delete
  | setCounts (category : SlotCategory) (vacant filled : UInt32)
  | fill (category : SlotCategory) (count : UInt32)
  | release (category : SlotCategory) (count : UInt32)
  | join (xuids : List Xuid) (category : SlotCategory)
  | leave (xuids : List Xuid)
  | modify (flags : SessionFlags) (maxPublic maxPrivate : UInt32)
  deriving DecidableEq, Repr

def apply : Op → Action
  | .moveTo next => moveTo next
  | .register arbitrationId => register arbitrationId
  | .start => moveTo .inGame
  | .finish => moveTo .reporting
  | .delete => moveTo .deleted
  | .setCounts category vacant filled => setCounts category vacant filled
  | .fill category count => fill category count
  | .release category count => release category count
  | .join xuids category => join xuids category
  | .leave xuids => leave xuids
  | .modify flags maxPublic maxPrivate => modify flags maxPublic maxPrivate

/-- The session that an operation leaves behind, refused or not. -/
def step (s : Session) (op : Op) : Session :=
  match (apply op).run s with
  | .ok _ t => t
  | .error _ t => t

def run (s : Session) (ops : List Op) : Session := ops.foldl step s

@[simp] theorem run_nil (s : Session) : s.run [] = s := rfl

@[simp] theorem run_cons (s : Session) (op : Op) (ops : List Op) :
    s.run (op :: ops) = (s.step op).run ops := rfl

theorem run_append (s : Session) (ops ops' : List Op) :
    s.run (ops ++ ops') = (s.run ops).run ops' :=
  List.foldl_append

end Session

end ConsoleOnline
