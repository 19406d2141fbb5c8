import ConsoleOnline.Context
import Mathlib.Data.List.DropRight

/-!
The mismatch that a context keeps, along any history of observations and acknowledgements. It is the
last one that was seen since the last acknowledgement: versions that agree neither clear it nor put
another in its place.
-/
namespace ConsoleOnline.Context

/-! ### Histories -/

inductive Call where
  | observe (localVersion remoteVersion : String)
  | acknowledge
  deriving DecidableEq, Repr

inductive Answer where
  | agreement (agree : Bool)
  | taken (mismatch : Option VersionMismatch)
  deriving DecidableEq, Repr

def call (c : Context) : Call → Answer × Context
  | .observe localVersion remoteVersion => (c.observe localVersion remoteVersion).map .agreement id
  | .acknowledge => c.acknowledge.map .taken id

/-- The answers to the calls of a history, and the context that they leave. -/
def run (c : Context) : List Call → List Answer × Context
  | [] => ([], c)
  | x :: xs => ((c.call x).1 :: ((c.call x).2.run xs).1, ((c.call x).2.run xs).2)

/-- Blanks around them apart, the versions are the same. -/
def SameVersion (localVersion remoteVersion : String) : Prop :=
  Text.trim localVersion.toList = Text.trim remoteVersion.toList

instance : Decidable (SameVersion localVersion remoteVersion) :=
  inferInstanceAs (Decidable (_ = _))

/-- The mismatch that a call sees, with the versions as they are given. -/
def Call.seen? : Call → Option VersionMismatch
  | observe localVersion remoteVersion =>
    if SameVersion localVersion remoteVersion then none else some { localVersion, remoteVersion }
  | acknowledge => none

def sinceAcknowledged (history : List Call) : List Call :=
  history.rtakeWhile (· ≠ .acknowledge)

/-- The last mismatch seen since the last acknowledgement. -/
def outstanding? (history : List Call) : Option VersionMismatch :=
  ((sinceAcknowledged history).filterMap Call.seen?).getLast?

/-- What a call is told after a history. -/
def Call.answerAfter (history : List Call) : Call → Answer
  | observe localVersion remoteVersion => .agreement (SameVersion localVersion remoteVersion)
  | acknowledge => .taken (outstanding? history)

/-! ### One call -/

theorem outstanding?_acknowledge (history : List Call) :
    outstanding? (history ++ [.acknowledge]) = none := by
  rw [outstanding?, sinceAcknowledged, List.rtakeWhile_concat_neg _ _ _ (by simp)]
  rfl

theorem outstanding?_observe (history : List Call) (localVersion remoteVersion : String) :
    outstanding? (history ++ [.observe localVersion remoteVersion]) =
      if SameVersion localVersion remoteVersion then outstanding? history
      else some { localVersion, remoteVersion } := by
  rw [outstanding?, sinceAcknowledged, List.rtakeWhile_concat_pos _ _ _ (by simp),
    List.filterMap_append, List.getLast?_append]
  by_cases h : SameVersion localVersion remoteVersion
  · simp [Call.seen?, h, outstanding?, sinceAcknowledged]
  · simp [Call.seen?, h]

/-- From one history to the next, the context goes on keeping what is outstanding. -/
theorem call_eq (settings : Settings) (history : List Call) (x : Call) :
    call ⟨settings, outstanding? history⟩ x =
      (x.answerAfter history, ⟨settings, outstanding? (history ++ [x])⟩) := by
  cases x with
  | observe localVersion remoteVersion =>
    by_cases h : SameVersion localVersion remoteVersion
    · have hagree : versionsAgree localVersion remoteVersion = true := decide_eq_true h
      simp [call, observe, hagree, Call.answerAfter, outstanding?_observe, h]
    · have hagree : versionsAgree localVersion remoteVersion = false := decide_eq_false h
      simp [call, observe, hagree, Call.answerAfter, outstanding?_observe, h]
  | acknowledge =>
    rw [outstanding?_acknowledge]
    rfl

/-! ### Whole histories -/

theorem length_run (c : Context) (calls : List Call) : (c.run calls).1.length = calls.length := by
  induction calls generalizing c with
  | nil => rfl
  | cons x xs ih => simp [run, ih]

theorem run_append (c : Context) (xs ys : List Call) :
    c.run (xs ++ ys) =
      ((c.run xs).1 ++ ((c.run xs).2.run ys).1, ((c.run xs).2.run ys).2) := by
  induction xs generalizing c with
  | nil => rfl
  | cons x xs ih => simp [run, ih]

theorem context_run (settings : Settings) (history : List Call) :
    (run { settings } history).2 = ⟨settings, outstanding? history⟩ := by
  induction history using List.reverseRecOn with
  | nil => rfl
  | append_singleton history x ih =>
    rw [run_append, ih]
    exact congrArg Prod.snd (call_eq settings history x)

theorem answer_run (settings : Settings) (before after : List Call) (x : Call) :
    (run { settings } (before ++ x :: after)).1[before.length]? = some (x.answerAfter before) := by
  rw [run_append, List.getElem?_append_right (Nat.le_of_eq (length_run ..)), length_run,
    Nat.sub_self, context_run, run, call_eq, List.getElem?_cons_zero]

theorem isSome_outstanding?_iff (history : List Call) :
    (outstanding? history).isSome ↔ ∃ localVersion remoteVersion,
      .observe localVersion remoteVersion ∈ sinceAcknowledged history ∧
        ¬ SameVersion localVersion remoteVersion := by
  rw [outstanding?, List.getLast?_isSome]
  constructor
  · intro h
    obtain ⟨m, hm⟩ := List.exists_mem_of_ne_nil _ h
    obtain ⟨x, hx, hseen⟩ := List.mem_filterMap.mp hm
    cases x with
    | observe localVersion remoteVersion =>
      refine ⟨localVersion, remoteVersion, hx, fun hsame => ?_⟩
      rw [Call.seen?, if_pos hsame] at hseen
      cases hseen
    | acknowledge => cases hseen
  · rintro ⟨localVersion, remoteVersion, hx, hdiffer⟩
    exact List.ne_nil_of_mem (List.mem_filterMap.mpr ⟨_, hx, if_neg hdiffer⟩)

/-- A new context after a history. It indicates a mismatch if one was seen since the last
acknowledgement, and keeps the last of these; every call is told what it asks for, on the history
before it; and a call that sees no mismatch leaves the context as it was. -/
structure Latches (settings : Settings) (history : List Call) : Prop where
  settings_eq : (run { settings } history).2.settings = settings
  mismatch_eq : (run { settings } history).2.mismatch = outstanding? history
  indicated_iff : (run { settings } history).2.mismatch.isSome ↔
    ∃ localVersion remoteVersion,
      .observe localVersion remoteVersion ∈ sinceAcknowledged history ∧
        ¬ SameVersion localVersion remoteVersion
  length_answers : (run { settings } history).1.length = history.length
  answer_eq : ∀ before x after, history = before ++ x :: after →
    (run { settings } history).1[before.length]? = some (x.answerAfter before)
  unaltered : ∀ before localVersion remoteVersion after,
    history = before ++ .observe localVersion remoteVersion :: after →
      SameVersion localVersion remoteVersion →
        (run { settings } (before ++ [.observe localVersion remoteVersion])).2 =
          (run { settings } before).2

theorem mismatch_follows_history (settings : Settings) (history : List Call) :
    Latches settings history where
  settings_eq := by rw [context_run]
  mismatch_eq := by rw [context_run]
  indicated_iff := by
    rw [context_run]
    exact isSome_outstanding?_iff history
  length_answers := length_run _ history
  answer_eq := by
    rintro before x after rfl
    exact answer_run settings before after x
  unaltered := by
    intro before localVersion remoteVersion _ _ hsame
    rw [context_run, context_run, outstanding?_observe, if_pos hsame]

example : (run {} [.observe "1.2.0" "1.3.0", .observe "1.2.0" " 1.2.0", .acknowledge]).1 =
    [.agreement false, .agreement true, .taken (some ⟨"1.2.0", "1.3.0"⟩)] := by
  decide

end ConsoleOnline.Context
