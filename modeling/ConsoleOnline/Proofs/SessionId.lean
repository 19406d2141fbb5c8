import ConsoleOnline.Ids
import Mathlib.Algebra.Group.Nat.Defs
import Mathlib.Data.Nat.Find
import Mathlib.Data.Stream.Init

/-!
Session identifiers drawn at random. The source of draws has no end, and an identifier takes as many
of them as it needs: one, and for `systemLink`, whose tag byte is zero, one more for every draw whose
low bits are all zero. What can be drawn is just what `SessionId.kind` tells a tag of.
-/
namespace ConsoleOnline.SessionId

/-! ### What an identifier is worth -/

/-- The bits below the tag byte. -/
def low (n : UInt64) : Nat := n.toNat % 2 ^ 56

theorem low_lt (n : UInt64) : low n < 2 ^ 56 := Nat.mod_lt _ (by decide)

theorem toNat_tagByte (id : SessionId) : id.tagByte.toNat = id.raw.toNat / 2 ^ 56 := by
  have hlt := id.raw.toNat_lt
  simp only [tagByte, UInt64.toNat_toUInt8, UInt64.toNat_shiftRight, Nat.shiftRight_eq_div_pow]
  change id.raw.toNat / 2 ^ 56 % 2 ^ 8 = _
  omega

theorem toNat_raw (id : SessionId) : id.raw.toNat = id.tagByte.toNat * 2 ^ 56 + low id.raw := by
  rw [toNat_tagByte, low]
  omega

theorem toNat_ofDraw (tag : SessionTag) (draw : UInt64) :
    (ofDraw tag draw).raw.toNat = tag.byte.toNat * 2 ^ 56 + low draw := by
  have hbyte := tag.byte.toNat_lt
  have hlow := low_lt draw
  have hmask : draw.toNat &&& randomMask.toNat = low draw :=
    Nat.and_two_pow_sub_one_eq_mod draw.toNat 56
  simp only [ofDraw, UInt64.toNat_or, UInt64.toNat_and, UInt64.toNat_shiftLeft,
    UInt8.toNat_toUInt64, hmask]
  change tag.byte.toNat <<< 56 % 2 ^ 64 ||| low draw = _
  rw [Nat.mod_eq_of_lt (by rw [Nat.shiftLeft_eq]; omega), ← Nat.shiftLeft_add_eq_or_of_lt hlow,
    Nat.shiftLeft_eq]

theorem tagByte_ofDraw (tag : SessionTag) (draw : UInt64) : (ofDraw tag draw).tagByte = tag.byte := by
  have hlow := low_lt draw
  apply UInt8.toNat.inj
  rw [toNat_tagByte, toNat_ofDraw]
  omega

theorem low_ofDraw (tag : SessionTag) (draw : UInt64) : low (ofDraw tag draw).raw = low draw := by
  have hlow := low_lt draw
  rw [low, toNat_ofDraw]
  omega

/-- An identifier is its tag byte and the bits below it. -/
theorem ofDraw_eq_iff {tag : SessionTag} {draw : UInt64} {id : SessionId} :
    ofDraw tag draw = id ↔ id.tagByte = tag.byte ∧ low draw = low id.raw := by
  constructor
  · rintro rfl
    exact ⟨tagByte_ofDraw tag draw, (low_ofDraw tag draw).symm⟩
  · rintro ⟨hbyte, hlow⟩
    have hraw : (ofDraw tag draw).raw = id.raw := by
      apply UInt64.toNat.inj
      rw [toNat_ofDraw, toNat_raw id, hbyte, hlow]
    exact congrArg mk hraw

theorem find?_byte {b : UInt8} {t : SessionTag} :
    SessionTag.all.find? (fun u => u.byte = b) = some t ↔ b = t.byte := by
  constructor
  · intro h
    simpa [eq_comm] using List.find?_some h
  · rintro rfl
    cases t <;> rfl

theorem kind_eq_tagged_iff {id : SessionId} {t : SessionTag} :
    id.kind = .tagged t ↔ id.raw ≠ 0 ∧ id.tagByte = t.byte := by
  rw [← find?_byte, kind]
  split
  · next hzero => simp [hzero]
  · next hzero =>
    rw [and_iff_right hzero]
    split
    · next u hfind => rw [hfind, SessionKind.tagged.injEq, Option.some.injEq]
    · next hfind => simp [hfind]

theorem ofRaw_eq_ok_iff {raw : UInt64} {id : SessionId} :
    ofRaw raw = .ok id ↔ id = ⟨raw⟩ ∧ ∃ t, id.kind = .tagged t := by
  have hvalid : isValid ⟨raw⟩ ↔ ∃ t, (mk raw).kind = .tagged t := by
    rw [isValid]
    cases (mk raw).kind <;> simp
  rw [ofRaw]
  split
  · next h =>
    rw [Except.ok.injEq, eq_comm]
    refine (and_iff_left_of_imp ?_).symm
    rintro rfl
    exact hvalid.mp h
  · next h =>
    constructor
    · intro e
      cases e
    · rintro ⟨rfl, ht⟩
      exact absurd (hvalid.mpr ht) h

theorem ofRaw_eq_error_iff {raw : UInt64} :
    ofRaw raw = .error (.identifier raw) ↔ (mk raw).kind = .invalid := by
  rw [ofRaw, isValid]
  cases (mk raw).kind <;> simp

/-! ### Draws from a list -/

theorem kind_ofDraw {tag : SessionTag} {draw : UInt64} (h : (ofDraw tag draw).raw ≠ 0) :
    (ofDraw tag draw).kind = .tagged tag :=
  kind_eq_tagged_iff.mpr ⟨h, tagByte_ofDraw tag draw⟩

theorem generate_cons_of_ne {tag : SessionTag} {draw : UInt64} (h : (ofDraw tag draw).raw ≠ 0)
    (rest : List UInt64) : generate tag (draw :: rest) = some (ofDraw tag draw, rest) := by
  rw [generate, if_pos h]

theorem generate_cons_of_eq {tag : SessionTag} {draw : UInt64} (h : (ofDraw tag draw).raw = 0)
    (rest : List UInt64) : generate tag (draw :: rest) = generate tag rest := by
  rw [generate, if_neg (not_not_intro h)]

/-- Whatever is drawn is told the tag that it was drawn for. -/
theorem kind_of_generate {tag : SessionTag} {draws rest : List UInt64} {id : SessionId}
    (h : generate tag draws = some (id, rest)) : id.kind = .tagged tag := by
  induction draws with
  | nil => cases h
  | cons draw draws ih =>
    by_cases hzero : (ofDraw tag draw).raw = 0
    · rw [generate_cons_of_eq hzero] at h
      exact ih h
    · rw [generate_cons_of_ne hzero] at h
      obtain rfl := congrArg Prod.fst (Option.some.inj h)
      exact kind_ofDraw hzero

/-! ### Draws from a source without end -/

/-- An identifier is drawn from the source, and `used` draws are taken for it: with fewer there is
none yet, and of more the others are left. -/
structure Stops (tag : SessionTag) (source : Stream' UInt64) (used : Nat) (id : SessionId) :
    Prop where
  waits : ∀ m < used, generate tag (source.take m) = none
  leaves : ∀ m, generate tag (source.take (used + m)) = some (id, (source.drop used).take m)

section

variable {tag : SessionTag} {source : Stream' UInt64} {used : Nat} {id : SessionId}

theorem Stops.kind (h : Stops tag source used id) : id.kind = .tagged tag :=
  kind_of_generate (h.leaves 0)

theorem stops_at_once (h : (ofDraw tag source.head).raw ≠ 0) :
    Stops tag source 1 (ofDraw tag source.head) where
  waits m hm := by
    obtain rfl := Nat.lt_one_iff.mp hm
    rfl
  leaves m := by
    rw [Nat.add_comm, Stream'.take_succ, generate_cons_of_ne h]
    rfl

theorem Stops.redrawn (h : (ofDraw tag source.head).raw = 0)
    (hstops : Stops tag source.tail used id) : Stops tag source (used + 1) id where
  waits m hm := by
    cases m with
    | zero => rfl
    | succ m =>
      rw [Stream'.take_succ, generate_cons_of_eq h]
      exact hstops.waits m (Nat.lt_of_succ_lt_succ hm)
  leaves m := by
    rw [Nat.add_right_comm, Stream'.take_succ, generate_cons_of_eq h, hstops.leaves m]
    rfl

/-- The first draw that does not lead to zero is the last one taken. -/
theorem stops_of_first (first : Nat) (hzero : ∀ i < first, (ofDraw tag (source.get i)).raw = 0)
    (h : (ofDraw tag (source.get first)).raw ≠ 0) :
    Stops tag source (first + 1) (ofDraw tag (source.get first)) := by
  induction first generalizing source with
  | zero => exact stops_at_once h
  | succ first ih =>
    have hrest : Stops tag source.tail (first + 1) (ofDraw tag (source.tail.get first)) :=
      ih (fun i hi => hzero (i + 1) (Nat.succ_lt_succ hi)) h
    exact hrest.redrawn (hzero 0 (Nat.succ_pos first))

end

theorem raw_ofDraw_eq_zero_iff {tag : SessionTag} {draw : UInt64} :
    (ofDraw tag draw).raw = 0 ↔ tag = .systemLink ∧ low draw = 0 := by
  rw [← UInt64.toNat_inj, toNat_ofDraw]
  cases tag <;> simp [SessionTag.byte]

/-- A valid identifier is drawn at once from its own low bits, for its own tag. -/
theorem stops_at_own {raw : UInt64} {tag : SessionTag} (h : (mk raw).kind = .tagged tag)
    {source : Stream' UInt64} (hlow : low source.head = low raw) : Stops tag source 1 ⟨raw⟩ := by
  obtain ⟨hne, hbyte⟩ := kind_eq_tagged_iff.mp h
  have hdraw : ofDraw tag source.head = ⟨raw⟩ := ofDraw_eq_iff.mpr ⟨hbyte, hlow⟩
  rw [← hdraw]
  exact stops_at_once (by rwa [hdraw])

/-- What a source gives for a tag: the tag byte with the bits below it of one draw, which is the first
that does not make it zero. Tags that are not zero themselves take the very first. -/
structure Drawn (tag : SessionTag) (source : Stream' UInt64) (first : Nat) (id : SessionId) :
    Prop where
  stops : Stops tag source (first + 1) id
  value : id.raw.toNat = tag.byte.toNat * 2 ^ 56 + low (source.get first)
  zeros : ∀ i < first, tag.byte.toNat * 2 ^ 56 + low (source.get i) = 0
  first_eq_zero : tag ≠ .systemLink → first = 0
  raw_ne_zero : id.raw ≠ 0
  kind : id.kind = .tagged tag
  accepted : ofRaw id.raw = .ok id

theorem exists_drawn (tag : SessionTag) {source : Stream' UInt64}
    (h : ∃ i, low (source.get i) ≠ 0) : ∃ first id, Drawn tag source first id := by
  have hexists : ∃ i, (ofDraw tag (source.get i)).raw ≠ 0 := by
    obtain ⟨i, hi⟩ := h
    exact ⟨i, fun hzero => hi (raw_ofDraw_eq_zero_iff.mp hzero).2⟩
  have hne : (ofDraw tag (source.get (Nat.find hexists))).raw ≠ 0 := Nat.find_spec hexists
  have hzero : ∀ i < Nat.find hexists, (ofDraw tag (source.get i)).raw = 0 :=
    fun i hi => not_not.mp (Nat.find_min hexists hi)
  refine ⟨Nat.find hexists, ofDraw tag (source.get (Nat.find hexists)), ?_⟩
  constructor
  case stops => exact stops_of_first _ hzero hne
  case value => exact toNat_ofDraw tag _
  case zeros =>
    intro i hi
    rw [← toNat_ofDraw, hzero i hi]
    rfl
  case first_eq_zero =>
    intro htag
    by_contra hpos
    exact htag (raw_ofDraw_eq_zero_iff.mp (hzero 0 (Nat.pos_of_ne_zero hpos))).1
  case raw_ne_zero => exact hne
  case kind => exact kind_ofDraw hne
  case accepted => exact ofRaw_eq_ok_iff.mpr ⟨rfl, tag, kind_ofDraw hne⟩

/-- From a source that has more than zeros below the tag, an identifier is drawn for every tag, and it
is valid. The numbers that are accepted as identifiers are those that are drawn from their own low
bits, each of them for one tag only, and the others are refused as of no kind. -/
theorem drawn_iff_accepted :
    (∀ (tag : SessionTag) (source : Stream' UInt64), (∃ i, low (source.get i) ≠ 0) →
      ∃ first id, Drawn tag source first id) ∧
    ∀ raw : UInt64,
      (ofRaw raw = .ok ⟨raw⟩ ↔ ∀ source : Stream' UInt64, low source.head = low raw →
        ∃ tag, Stops tag source 1 ⟨raw⟩ ∧
          ∀ (other : SessionTag) (used : Nat), Stops other source used ⟨raw⟩ → other = tag) ∧
      (ofRaw raw = .error (.identifier raw) ↔ (mk raw).kind = .invalid) := by
  refine ⟨fun tag _ h => exists_drawn tag h, fun raw => ⟨?_, ofRaw_eq_error_iff⟩⟩
  rw [ofRaw_eq_ok_iff, and_iff_right rfl]
  constructor
  · rintro ⟨tag, htag⟩ source hlow
    refine ⟨tag, stops_at_own htag hlow, fun other used hother => ?_⟩
    exact SessionKind.tagged.inj (hother.kind.symm.trans htag)
  · intro h
    obtain ⟨tag, hstops, -⟩ := h (Stream'.const raw) rfl
    exact ⟨tag, hstops.kind⟩

/-- A draw that has only its top byte is drawn again for `systemLink`. -/
theorem drawn_after_redrawing :
    ∃ first id, Drawn .systemLink (Stream'.cons 0xFF00000000000000 (Stream'.const 0x42)) first id ∧
      first = 1 ∧ id = ⟨0x42⟩ := by
  obtain ⟨first, id, h⟩ := drawn_iff_accepted.1 .systemLink
    (Stream'.cons 0xFF00000000000000 (Stream'.const 0x42)) ⟨1, by decide⟩
  have hfirst : first = 1 := by
    match first, h with
    | 0, h =>
      have hraw : id.raw = 0 := UInt64.toNat.inj h.value
      exact absurd hraw h.raw_ne_zero
    | 1, _ => rfl
    | first + 2, h => exact absurd (h.zeros 1 (by omega)) (by decide)
  subst hfirst
  have hraw : id.raw = 0x42 := UInt64.toNat.inj h.value
  exact ⟨1, id, h, rfl, congrArg mk hraw⟩

end ConsoleOnline.SessionId
