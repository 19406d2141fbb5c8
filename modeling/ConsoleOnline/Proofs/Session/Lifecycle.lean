import ConsoleOnline.Proofs.Session.Reachable

/-!
The course of a session from its lobby on. The state moves along `SessionState.Leads` and never
back, so its code rises with every move and bounds how many there are. The arbitration identifier is
handed out on the way out of the lobby, and as nothing leads back there, it is handed out once.
-/
namespace ConsoleOnline

namespace SessionState

/-- The life of a session. -/
inductive Leads : SessionState → SessionState → Prop where
  | register : Leads lobby registration
  | start : Leads registration inGame
  | finish : Leads inGame reporting
  | delete : Leads reporting deleted
  | abandon : Leads lobby deleted

theorem allows_iff {s next : SessionState} : s.allows next ↔ s.Leads next := by
  constructor
  · intro h
    rw [allows.eq_def] at h
    split at h
    · exact .register
    · exact .start
    · exact .finish
    · exact .delete
    · exact .abandon
    · cases h
  · rintro ⟨⟩ <;> rfl

theorem Leads.code_lt {s next : SessionState} (h : s.Leads next) : s.code < next.code :=
  code_lt_of_allows (allows_iff.mpr h)

theorem Leads.ne_lobby {s next : SessionState} (h : s.Leads next) : next ≠ lobby := by
  cases h <;> decide

theorem not_leads_of_deleted {next : SessionState} : ¬ deleted.Leads next := by
  rintro ⟨⟩

theorem toNat_code_le (s : SessionState) : s.code.toNat ≤ 4 := by
  cases s <;> decide

end SessionState

namespace Session

/-! ### Turns -/

/-- The state that an operation asks for. -/
def Op.target? : Op → Option SessionState
  | .moveTo next => some next
  | .register _ => some .registration
  | .start => some .inGame
  | .finish => some .reporting
  | .delete => some .deleted
  | .setCounts .. | .fill .. | .release .. | .join .. | .leave .. | .modify .. => none

/-- The arbitration identifier that an operation hands out. -/
def Op.arbitrationId? : Op → Option SessionId
  | .register arbitrationId => some arbitrationId
  | .moveTo _ | .start | .finish | .delete => none
  | .setCounts .. | .fill .. | .release .. | .join .. | .leave .. | .modify .. => none

/-- One operation of a run, with the session that it finds. -/
structure Turn where
  before : Session
  op : Op

namespace Turn

def after (t : Turn) : Session := t.before.step t.op

def happens (t : Turn) : Bool :=
  match (apply t.op).run t.before with
  | .ok _ _ => true
  | .error _ _ => false

/-- A transition that was not refused. -/
def moves (t : Turn) : Bool := t.op.target?.isSome && t.happens

/-- A registration that was not refused. -/
def registers (t : Turn) : Bool := t.op.arbitrationId?.isSome && t.happens

end Turn

/-- The operations of a run in turn. -/
def turns (s : Session) : List Op → List Turn
  | [] => []
  | op :: ops => ⟨s, op⟩ :: (s.step op).turns ops

/-- The states of a run, with the one that it begins in. -/
def states (s : Session) (ops : List Op) : List SessionState :=
  s.state :: (s.turns ops).map fun t => t.after.state

/-! ### One turn -/

theorem admits_iff_leads {s : Session} {op : Op} {next : SessionState} (h : op.target? = some next) :
    Admits s op ↔ s.state.Leads next := by
  rw [← SessionState.allows_iff]
  cases op <;> cases h <;> exact Iff.rfl

theorem Effect.state_and_arbitrationId {s t : Session} {op : Op} (h : Effect s t op) :
    t.state = op.target?.getD s.state ∧
      t.arbitrationId = op.arbitrationId?.getD s.arbitrationId := by
  cases op with
  | moveTo next | register arbitrationId | start | finish | delete =>
    rw [h]
    exact ⟨rfl, rfl⟩
  | setCounts category vacant filled =>
    rw [h]
    exact ⟨state_withSlots .., arbitrationId_withSlots ..⟩
  | fill category count | release category count | join xuids category =>
    obtain ⟨x, -, rfl⟩ := h
    exact ⟨state_withSlots .., arbitrationId_withSlots ..⟩
  | leave xuids | modify flags maxPublic maxPrivate =>
    obtain ⟨x, y, -, -, rfl⟩ := h
    exact ⟨rfl, rfl⟩

theorem Op.target?_of_arbitrationId? {op : Op} (h : op.arbitrationId?.isSome) :
    op.target? = some .registration := by
  cases op with
  | register arbitrationId => rfl
  | _ => cases h

/-- Only transitions change the state, each along an edge of the session's life and to the state
that it asks for; only registrations change the arbitration identifier; and what is refused changes
nothing. -/
structure Turn.Orderly (t : Turn) : Prop where
  refused : ¬ t.happens → t.after = t.before
  moved : ∀ next, t.op.target? = some next →
    (t.happens ↔ t.before.state.Leads next) ∧ (t.happens → t.after.state = next)
  steady : t.op.target? = none → t.after.state = t.before.state
  registered : ∀ id, t.op.arbitrationId? = some id → t.happens → t.after.arbitrationId = id
  kept : ¬ t.registers → t.after.arbitrationId = t.before.arbitrationId

theorem Accounted.orderly {t : Turn} (h : Accounted t.before) : t.Orderly := by
  rcases meets_apply h t.op with ⟨hadmits, u, hu, hrun⟩ | ⟨hrefused, e, hrun⟩
  · have hafter : t.after = u := by simp only [Turn.after, Session.step, hrun]
    have hhappens : t.happens = true := by simp only [Turn.happens, hrun]
    obtain ⟨hstate, harbitration⟩ := hu.state_and_arbitrationId
    refine ⟨fun hnot => absurd hhappens hnot, fun next hnext => ?_, fun hnone => ?_,
      fun id hid _ => ?_, fun hnot => ?_⟩
    · refine ⟨by simp [hhappens, ← admits_iff_leads hnext, hadmits], fun _ => ?_⟩
      rw [hafter, hstate, hnext, Option.getD_some]
    · rw [hafter, hstate, hnone, Option.getD_none]
    · rw [hafter, harbitration, hid, Option.getD_some]
    · have hnone : t.op.arbitrationId? = none := by
        simpa [Turn.registers, hhappens] using hnot
      rw [hafter, harbitration, hnone, Option.getD_none]
  · have hafter : t.after = t.before := by simp only [Turn.after, Session.step, hrun]
    have hhappens : t.happens = false := by simp only [Turn.happens, hrun]
    refine ⟨fun _ => hafter, fun next hnext => ?_, fun _ => by rw [hafter],
      fun id _ hyes => ?_, fun _ => by rw [hafter]⟩
    · refine ⟨by simp [hhappens, ← admits_iff_leads hnext, hrefused], fun hyes => ?_⟩
      simp [hhappens] at hyes
    · simp [hhappens] at hyes

theorem Turn.Orderly.leads_of_moves {t : Turn} (h : t.Orderly) (hmoves : t.moves) :
    t.before.state.Leads t.after.state := by
  obtain ⟨htarget, hhappens⟩ := Bool.and_eq_true_iff.mp hmoves
  obtain ⟨next, hnext⟩ := Option.isSome_iff_exists.mp htarget
  obtain ⟨hiff, hafter⟩ := h.moved next hnext
  rw [hafter hhappens]
  exact hiff.mp hhappens

theorem Turn.Orderly.state_of_not_moves {t : Turn} (h : t.Orderly) (hmoves : ¬ t.moves) :
    t.after.state = t.before.state := by
  cases hnext : t.op.target? with
  | none => exact h.steady hnext
  | some next =>
    have hhappens : ¬ t.happens := by simpa [moves, hnext] using hmoves
    rw [h.refused hhappens]

/-- A registration leads out of the lobby. -/
theorem Turn.Orderly.lobby_of_registers {t : Turn} (h : t.Orderly) (hregisters : t.registers) :
    t.before.state = .lobby := by
  obtain ⟨hid, hhappens⟩ := Bool.and_eq_true_iff.mp hregisters
  have hleads := (h.moved _ (Op.target?_of_arbitrationId? hid)).1.mp hhappens
  generalize t.before.state = state at hleads
  cases hleads
  rfl

theorem Turn.moves_of_registers {t : Turn} (h : t.registers) : t.moves := by
  obtain ⟨hid, hhappens⟩ := Bool.and_eq_true_iff.mp h
  have htarget := Op.target?_of_arbitrationId? hid
  exact Bool.and_eq_true_iff.mpr ⟨by rw [htarget, Option.isSome_some], hhappens⟩

/-- No turn leads back to the lobby. -/
theorem Turn.Orderly.ne_lobby {t : Turn} (h : t.Orderly) (hleft : t.before.state ≠ .lobby) :
    t.after.state ≠ .lobby := by
  by_cases hmoves : t.moves
  · exact (h.leads_of_moves hmoves).ne_lobby
  · rw [h.state_of_not_moves hmoves]
    exact hleft

/-! ### Whole runs -/

theorem Accounted.orderly_turns {s : Session} (h : Accounted s) (ops : List Op) :
    ∀ t ∈ s.turns ops, t.Orderly := by
  induction ops generalizing s with
  | nil => exact fun t ht => absurd ht List.not_mem_nil
  | cons op ops ih => exact List.forall_mem_cons.mpr ⟨Accounted.orderly h, ih (h.step op)⟩

theorem Accounted.isChain_states {s : Session} (h : Accounted s) (ops : List Op) :
    (s.states ops).IsChain fun a b => a = b ∨ a.Leads b := by
  induction ops generalizing s with
  | nil => exact .singleton _
  | cons op ops ih =>
    have horderly : Turn.Orderly ⟨s, op⟩ := Accounted.orderly h
    refine List.IsChain.cons_cons ?_ (ih (h.step op))
    by_cases hmoves : Turn.moves ⟨s, op⟩
    · exact .inr (horderly.leads_of_moves hmoves)
    · exact .inl (horderly.state_of_not_moves hmoves).symm

theorem Accounted.pairwise_code_states {s : Session} (h : Accounted s) (ops : List Op) :
    ((s.states ops).map SessionState.code).Pairwise (· ≤ ·) := by
  rw [← List.isChain_iff_pairwise, List.isChain_map]
  refine (h.isChain_states ops).imp fun a b hab => ?_
  rcases hab with rfl | hleads
  · exact UInt32.le_refl _
  · exact UInt32.le_of_lt hleads.code_lt

/-- Every move takes the code up by one at least. -/
theorem Accounted.code_add_countP_moves_le {s : Session} (h : Accounted s) (ops : List Op) :
    s.state.code.toNat + (s.turns ops).countP Turn.moves ≤ (s.run ops).state.code.toNat := by
  induction ops generalizing s with
  | nil => exact Nat.le_refl _
  | cons op ops ih =>
    have horderly : Turn.Orderly ⟨s, op⟩ := Accounted.orderly h
    have hrest := ih (h.step op)
    rw [turns, List.countP_cons, run_cons]
    by_cases hmoves : Turn.moves ⟨s, op⟩
    · have hlt := UInt32.lt_iff_toNat_lt.mp (horderly.leads_of_moves hmoves).code_lt
      simp only [Turn.after] at hlt
      rw [if_pos hmoves]
      omega
    · have hsame := horderly.state_of_not_moves hmoves
      simp only [Turn.after] at hsame
      rw [if_neg hmoves, ← hsame]
      omega

theorem Accounted.arbitrationId_run {s : Session} (h : Accounted s) (hleft : s.state ≠ .lobby)
    (ops : List Op) : (s.run ops).arbitrationId = s.arbitrationId := by
  induction ops generalizing s with
  | nil => rfl
  | cons op ops ih =>
    have horderly : Turn.Orderly ⟨s, op⟩ := Accounted.orderly h
    have hnot : ¬ Turn.registers ⟨s, op⟩ := fun hyes => hleft (horderly.lobby_of_registers hyes)
    rw [run_cons, ih (h.step op) (horderly.ne_lobby hleft)]
    exact horderly.kept hnot

theorem Accounted.countP_registers_le {s : Session} (h : Accounted s) (ops : List Op) :
    (s.turns ops).countP Turn.registers ≤ if s.state = .lobby then 1 else 0 := by
  induction ops generalizing s with
  | nil => exact Nat.zero_le _
  | cons op ops ih =>
    have horderly : Turn.Orderly ⟨s, op⟩ := Accounted.orderly h
    have hrest := ih (h.step op)
    rw [turns, List.countP_cons]
    by_cases hregisters : Turn.registers ⟨s, op⟩
    · have hlobby : s.state = .lobby := horderly.lobby_of_registers hregisters
      have hleft : (s.step op).state ≠ .lobby :=
        (horderly.leads_of_moves (Turn.moves_of_registers hregisters)).ne_lobby
      rw [if_neg hleft] at hrest
      rw [if_pos hregisters, if_pos hlobby]
      omega
    · rw [if_neg hregisters, Nat.add_zero]
      by_cases hlobby : s.state = .lobby
      · rw [if_pos hlobby]
        split at hrest <;> omega
      · have hleft : (s.step op).state ≠ .lobby := horderly.ne_lobby hlobby
        rw [if_neg hleft] at hrest
        rw [if_neg hlobby]
        exact hrest

/-- How a run goes that begins in the lobby. -/
structure Course (s : Session) (ops : List Op) : Prop where
  path : (s.states ops).IsChain fun a b => a = b ∨ a.Leads b
  rising : ((s.states ops).map SessionState.code).Pairwise (· ≤ ·)
  orderly : ∀ t ∈ s.turns ops, t.Orderly
  risen : ∀ t ∈ s.turns ops, t.moves → t.before.state.code < t.after.state.code
  moves_le : (s.turns ops).countP Turn.moves ≤ 4
  deleted : ∀ t ∈ s.turns ops, t.before.state = .deleted → ¬ t.moves
  registers_le : (s.turns ops).countP Turn.registers ≤ 1
  kept : ∀ earlier later, ops = earlier ++ later → (s.run earlier).state ≠ .lobby →
    (s.run ops).arbitrationId = (s.run earlier).arbitrationId

/-- Whatever is done to a new session, its states are a path through the life of a session. -/
theorem life_follows_graph (id : SessionId) (flags : SessionFlags) (maxPublic maxPrivate : UInt32)
    (ops : List Op) : Course (new id flags maxPublic maxPrivate) ops := by
  have hnew := accounted_new id flags maxPublic maxPrivate
  have horderly := hnew.orderly_turns ops
  exact
    { path := hnew.isChain_states ops
      rising := hnew.pairwise_code_states ops
      orderly := horderly
      risen := fun t ht hmoves => ((horderly t ht).leads_of_moves hmoves).code_lt
      moves_le := Nat.le_trans (Nat.le_add_left ..) <|
        Nat.le_trans (hnew.code_add_countP_moves_le ops) (SessionState.toNat_code_le _)
      deleted := fun t ht hdeleted hmoves =>
        SessionState.not_leads_of_deleted (hdeleted ▸ (horderly t ht).leads_of_moves hmoves)
      registers_le := hnew.countP_registers_le ops
      kept := by
        rintro earlier later rfl hleft
        rw [run_append]
        exact (hnew.run earlier).arbitrationId_run hleft later }

/-- A registration that comes too late hands out nothing. -/
example :
    (new ⟨0xAE00000000000001⟩ .host 1 0).states
        [.start, .register ⟨5⟩, .moveTo .lobby, .register ⟨6⟩, .start] =
      [.lobby, .lobby, .registration, .registration, .registration, .inGame] ∧
    ((new ⟨0xAE00000000000001⟩ .host 1 0).run
        [.start, .register ⟨5⟩, .moveTo .lobby, .register ⟨6⟩, .start]).arbitrationId = ⟨5⟩ := by
  decide

end Session

end ConsoleOnline
