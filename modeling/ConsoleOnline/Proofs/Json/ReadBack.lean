import ConsoleOnline.Json.Reader
import ConsoleOnline.Json.Writer
import ConsoleOnline.Proofs.Json.Tree
import ConsoleOnline.Proofs.Numerals

/-!
The text of a value is read back as that value. Its characters give the tokens of a tree, the
tokens build the tree, and the tree has the value. Doubles are left aside: a value that is `Plain`
has none, and it is not nested deeper than values are read.
-/
namespace ConsoleOnline.Json

/-- A value without doubles, whose arrays and objects nest at most `room` deep. -/
inductive Value.Plain : Nat → Value → Prop where
  | null {room} : Plain room .null
  | bool {room} (b : Bool) : Plain room (.bool b)
  | natural {room} (n : UInt64) : Plain room (.number (.natural n))
  | negative {room} {n : Int64} (h : n.toInt < 0) : Plain room (.number (.negative n))
  | string {room} (s : String) : Plain room (.string s)
  | array {room items} (h : ∀ v ∈ items, Plain room v) : Plain (room + 1) (.array items)
  | object {room fields} (h : ∀ f ∈ fields, Plain room f.2) : Plain (room + 1) (.object fields)

/-! ### The tree that is written -/

/-- How a character of a string is spelled. -/
def Piece.ofChar (c : Char) : Piece :=
  if (shortEscape? c).isNone ∧ c.toNat < 0x20 then .unit (.ofNat c.toNat) else .char c

def Piece.ofString (s : String) : List Piece := s.toList.map Piece.ofChar

/-- The numeral of a whole number. -/
def Numeral.ofWhole (negative : Bool) (n : Nat) : Numeral :=
  { negative, whole := Digits.atLeast 10 1 n }

namespace Value

mutual

/-- The tree of a value's text. -/
def written : Value → Written
  | .null => .null
  | .bool b => .bool b
  | .number (.natural n) => .number (.ofWhole false n.toNat)
  | .number (.negative n) => .number (.ofWhole true n.toInt.natAbs)
  | .number (.real _) => .null
  | .string s => .string (Piece.ofString s)
  | .array items => .array (writtenItems items)
  | .object fields => .object (writtenFields fields)

def writtenItems : List Value → List Written
  | [] => []
  | v :: rest => v.written :: writtenItems rest

def writtenFields : List (String × Value) → List (List Piece × Written)
  | [] => []
  | (name, v) :: rest => (Piece.ofString name, v.written) :: writtenFields rest

end

end Value

/-! ### Characters to tokens -/

theorem scanFrom_step {m k : Mode} {c : Char} {ts : List Token} (h : m.step c = some (ts, k))
    (cs : List Char) : scanFrom m (c :: cs) = (scanFrom k cs).map (ts ++ ·) := by
  rw [scanFrom, h]
  cases hs : scanFrom k cs with
  | none => simp [hs]
  | some rest => simp [hs]

theorem scanFrom_silent {m k : Mode} {c : Char} (h : m.step c = some ([], k))
    (cs : List Char) : scanFrom m (c :: cs) = scanFrom k cs := by
  rw [scanFrom_step h]
  simp

/-- What follows a value within a text: it ends there or goes on outside the value. -/
def Follows (rest : List Char) : Prop :=
  ∀ c ∈ rest.head?, c = ',' ∨ c = ']' ∨ c = '\x7d'

/-- A mode that none of the characters continues that may follow a value. -/
def Mode.Stops (m : Mode) : Prop :=
  ∀ c, c = ',' ∨ c = ']' ∨ c = '\x7d' → m.step c = m.restart c

theorem scanFrom_of_stops {m : Mode} (h : m.Stops) {ts : List Token} (hclose : m.close = some ts)
    {rest : List Char} (hrest : Follows rest) :
    scanFrom m rest = (scanFrom .between rest).map (ts ++ ·) := by
  cases rest with
  | nil => simp [scanFrom, hclose, Mode.close.eq_def .between]
  | cons c rest =>
    have hstep : m.step c = (start c).map fun begun => (ts ++ begun.1, begun.2) := by
      rw [h c (hrest c rfl), Mode.restart, hclose]
      cases start c <;> rfl
    cases hs : start c with
    | none =>
      rw [hs] at hstep
      rw [scanFrom, scanFrom, hstep, Mode.step.eq_def .between, hs]
      rfl
    | some begun =>
      rw [hs] at hstep
      rw [scanFrom_step hstep, scanFrom_step (m := .between) hs, Option.map_map]
      simp [Function.comp_def]

theorem stops_numeral {part : NumeralPart} (h : part = .zero ∨ part = .whole) (n : Numeral) :
    Mode.Stops (.numeral part n) := by
  rintro c (rfl | rfl | rfl) <;> rcases h with rfl | rfl <;> rfl

theorem stops_word (letters : List Char) : Mode.Stops (.word letters) := by
  rintro c (rfl | rfl | rfl) <;> rfl

theorem scanFrom_letters {word : List Char} (h : ∀ c ∈ word, 'a' ≤ c ∧ c ≤ 'z')
    (before rest : List Char) :
    scanFrom (.word before) (word ++ rest) = scanFrom (.word (word.reverse ++ before)) rest := by
  induction word generalizing before with
  | nil => rfl
  | cons c word ih =>
    obtain ⟨hc, hword⟩ := List.forall_mem_cons.mp h
    rw [List.cons_append, scanFrom_silent (by rw [Mode.step, if_pos hc]), ih hword]
    simp

theorem scanFrom_word {c : Char} {word rest : List Char} {t : Token}
    (hstart : start c = some ([], .word [c])) (hword : ∀ c ∈ word, 'a' ≤ c ∧ c ≤ 'z')
    (ht : wordToken? (c :: word) = some t) (hrest : Follows rest) :
    scanFrom .between (c :: word ++ rest) = (scanFrom .between rest).map ([t] ++ ·) := by
  rw [List.cons_append, scanFrom_silent (m := .between) hstart, scanFrom_letters hword]
  refine scanFrom_of_stops (stops_word _) ?_ hrest
  simp [Mode.close, ht]

/-! ### Whole numbers -/

theorem step_digitChar {d : Nat} (h : d < 10) (n : Numeral) :
    Mode.step (.numeral .whole n) (Decimal.digitChar d) =
      some ([], .numeral .whole { n with whole := n.whole ++ [d] }) := by
  have hne : ∀ d : Fin 10, Decimal.digitChar d.val ≠ '.' ∧ Decimal.digitChar d.val ≠ 'e' ∧
      Decimal.digitChar d.val ≠ 'E' := by decide
  obtain ⟨hpoint, he, hE⟩ := hne ⟨d, h⟩
  simp only at hpoint he hE
  simp [Mode.step, NumeralPart.extend, hpoint, he, hE, Decimal.digit?_digitChar h]

theorem scanFrom_digits {ds : List Nat} (h : ∀ d ∈ ds, d < 10) (n : Numeral) (rest : List Char) :
    scanFrom (.numeral .whole n) (ds.map Decimal.digitChar ++ rest) =
      scanFrom (.numeral .whole { n with whole := n.whole ++ ds }) rest := by
  induction ds generalizing n with
  | nil => simp
  | cons d ds ih =>
    obtain ⟨hd, hds⟩ := List.forall_mem_cons.mp h
    rw [List.map_cons, List.cons_append, scanFrom_silent (step_digitChar hd n), ih hds]
    simp

/-- A whole number, at its beginning or after its sign. -/
theorem scanFrom_natural {m : Mode} {negative : Bool}
    (hm : ∀ d < 10, m.step (Decimal.digitChar d) =
      some ([], .numeral (if d = 0 then .zero else .whole) { negative, whole := [d] }))
    (n : Nat) {rest : List Char} (hrest : Follows rest) :
    scanFrom m (Decimal.natural 1 n ++ rest) =
      (scanFrom .between rest).map ([.number (.ofWhole negative n)] ++ ·) := by
  have hlt : ∀ d ∈ Digits.atLeast 10 1 n, d < 10 := fun _ => Digits.mem_atLeast_lt (by decide)
  by_cases hn : n = 0
  · subst hn
    have hzero : Decimal.natural 1 0 = [Decimal.digitChar 0] := by
      rw [Decimal.natural, Digits.atLeast_zero (by decide), List.map_singleton]
    rw [hzero, List.singleton_append, scanFrom_silent (hm 0 (by decide)), Numeral.ofWhole,
      Digits.atLeast_zero (by decide)]
    exact scanFrom_of_stops (stops_numeral (.inl rfl) _) rfl hrest
  · have hhead := Digits.head_atLeast (b := 10) (by decide) (Nat.pos_of_ne_zero hn)
    rw [Decimal.natural, Numeral.ofWhole]
    cases hds : Digits.atLeast 10 1 n with
    | nil => exact absurd hds (Digits.atLeast_ne_nil (by decide) n)
    | cons d ds =>
      rw [hds] at hlt hhead
      obtain ⟨hd, hrestDigits⟩ := List.forall_mem_cons.mp hlt
      have hd0 : d ≠ 0 := fun h => hhead (by rw [h, List.head?_cons])
      rw [List.map_cons, List.cons_append, scanFrom_silent (hm d hd), if_neg hd0,
        scanFrom_digits hrestDigits]
      exact scanFrom_of_stops (stops_numeral (.inr rfl) _) rfl hrest

theorem step_start {d : Nat} (h : d < 10) :
    Mode.step .between (Decimal.digitChar d) =
      some ([], .numeral (if d = 0 then .zero else .whole) { whole := [d] }) := by
  have all : ∀ d : Fin 10, start (Decimal.digitChar d.val) =
      some ([], .numeral (if d.val = 0 then .zero else .whole) { whole := [d.val] }) := by decide
  exact all ⟨d, h⟩

theorem step_sign {d : Nat} (h : d < 10) (n : Numeral) :
    Mode.step (.numeral .sign n) (Decimal.digitChar d) =
      some ([], .numeral (if d = 0 then .zero else .whole) { n with whole := [d] }) := by
  simp [Mode.step, NumeralPart.extend, Decimal.digit?_digitChar h]

/-! ### Strings -/

/-- A short escape is read as the character that it was written for. -/
theorem escaped?_of_shortEscape? {c d : Char} (h : shortEscape? c = some d) :
    d ≠ 'u' ∧ escaped? d = some c := by
  rw [shortEscape?.eq_def] at h
  split at h <;> cases h <;> decide

theorem scanFrom_escaped {c d : Char} (hd : d ≠ 'u') (h : escaped? d = some c) (ps : List Piece)
    (rest : List Char) :
    scanFrom (.string ps) ('\\' :: d :: rest) = scanFrom (.string (.char c :: ps)) rest := by
  rw [scanFrom_silent (k := .escape ps) rfl]
  exact scanFrom_silent (by rw [Mode.step, if_neg hd, h, Option.map_some]) rest

theorem step_unit {c : Char} {digits : List Char} (hc : (Hex.digit? c).isSome)
    (h : digits.length < 3) (ps : List Piece) :
    Mode.step (.unit ps digits) c = some ([], .unit ps (digits ++ [c])) := by
  rw [Mode.step, if_pos h, if_pos hc]

theorem scanFrom_unit {n : Nat} (h : n < 0x10000) (ps : List Piece) (rest : List Char) :
    scanFrom (.string ps) (['\\', 'u'] ++ Hex.fixed .lower 4 n ++ rest) =
      scanFrom (.string (.unit (.ofNat n) :: ps)) rest := by
  have hvalue := Hex.value?_fixed .lower 4 n
  have hdigit := Hex.forall_mem_fixed (p := fun c => (Hex.digit? c).isSome) (k := .lower)
    (by decide) 4 n
  have hlength := Hex.length_fixed .lower 4 n
  match hfixed : Hex.fixed .lower 4 n, hlength with
  | [a, b, c, d], _ =>
    simp only [hfixed, List.forall_mem_cons] at hvalue hdigit
    obtain ⟨ha, hb, hc, -⟩ := hdigit
    have hlast : Mode.step (.unit ps [a, b, c]) d =
        some ([], .string (.unit (.ofNat n) :: ps)) := by
      rw [Mode.step, if_neg (by simp)]
      simp [hvalue, Nat.mod_eq_of_lt h]
    simp only [List.cons_append, List.nil_append]
    rw [scanFrom_silent (k := .escape ps) rfl, scanFrom_silent (k := .unit ps []) rfl,
      scanFrom_silent (step_unit ha (by simp) ps), scanFrom_silent (step_unit hb (by simp) ps),
      scanFrom_silent (step_unit hc (by simp) ps)]
    exact scanFrom_silent hlast rest

theorem scanFrom_escapeChar (c : Char) (ps : List Piece) (rest : List Char) :
    scanFrom (.string ps) (escapeChar c ++ rest) = scanFrom (.string (.ofChar c :: ps)) rest := by
  rw [escapeChar, Piece.ofChar]
  cases hc : shortEscape? c with
  | some d =>
    obtain ⟨hd, hescaped⟩ := escaped?_of_shortEscape? hc
    exact scanFrom_escaped hd hescaped ps rest
  | none =>
    by_cases hcontrol : c.toNat < 0x20
    · simp only [if_pos hcontrol, Option.isNone_none, true_and]
      exact scanFrom_unit (by omega) ps rest
    · have hne : c ≠ '"' ∧ c ≠ '\\' := by
        constructor <;> rintro rfl <;> cases hc
      simp only [if_neg hcontrol, Option.isNone_none, true_and]
      exact scanFrom_silent (by rw [Mode.step, if_neg hne.1, if_neg hne.2, if_neg hcontrol]) rest

theorem scanFrom_stringChars (s : String) (rest : List Char) :
    scanFrom .between (stringChars s ++ rest) =
      (scanFrom .between rest).map ([.string (Piece.ofString s)] ++ ·) := by
  have hchars : ∀ (cs : List Char) (ps : List Piece),
      scanFrom (.string ps) (cs.flatMap escapeChar ++ '"' :: rest) =
        (scanFrom .between rest).map ([.string (ps.reverse ++ cs.map Piece.ofChar)] ++ ·) := by
    intro cs
    induction cs with
    | nil =>
      intro ps
      rw [List.flatMap_nil, List.nil_append, scanFrom_step (k := .between) rfl]
      simp
    | cons c cs ih =>
      intro ps
      rw [List.flatMap_cons, List.append_assoc, scanFrom_escapeChar, ih]
      simp
  rw [stringChars, List.append_assoc, List.cons_append, scanFrom_silent (k := .string []) rfl]
  exact hchars s.toList []

/-! ### Values -/

theorem itemsChars_cons_cons (v w : Value) (rest : List Value) :
    Value.itemsChars (v :: w :: rest) = v.chars ++ ',' :: Value.itemsChars (w :: rest) := by
  rw [Value.itemsChars]
  simp

theorem fieldsChars_cons_cons (name : String) (v : Value) (f : String × Value)
    (rest : List (String × Value)) :
    Value.fieldsChars ((name, v) :: f :: rest) =
      stringChars name ++ ':' :: v.chars ++ ',' :: Value.fieldsChars (f :: rest) := by
  rw [Value.fieldsChars]
  simp

/-- What scanning the text of a value does: it gives its tokens and goes on after it. -/
def Value.Scans (v : Value) : Prop :=
  ∀ rest, Follows rest →
    scanFrom .between (v.chars ++ rest) = (scanFrom .between rest).map (v.written.tokens ++ ·)

theorem scanFrom_mark {c : Char} {t : Token} (h : start c = some ([t], .between))
    (rest : List Char) : scanFrom .between (c :: rest) = (scanFrom .between rest).map (t :: ·) :=
  scanFrom_step (m := .between) h rest

theorem follows_mark {c : Char} (h : c = ',' ∨ c = ']' ∨ c = '\x7d') (rest : List Char) :
    Follows (c :: rest) := by
  rintro d hd
  obtain rfl := Option.some.inj hd
  exact h

theorem scanFrom_itemsChars {v : Value} {items : List Value} (h : ∀ x ∈ v :: items, x.Scans)
    (rest : List Char) :
    scanFrom .between (Value.itemsChars (v :: items) ++ ']' :: rest) =
      (scanFrom .between rest).map
        (Written.itemsTokens (Value.writtenItems (v :: items)) ++ .closeArray :: ·) := by
  induction items generalizing v with
  | nil =>
    rw [Value.itemsChars, h v (by simp) _ (follows_mark (by simp) rest), scanFrom_mark rfl,
      Option.map_map]
    rfl
  | cons w items ih =>
    have hrest := ih fun x hx => h x (List.mem_cons_of_mem v hx)
    rw [itemsChars_cons_cons]
    simp only [List.append_assoc, List.cons_append]
    rw [h v (by simp) _ (follows_mark (by simp) _), scanFrom_mark rfl, hrest]
    simp only [Value.writtenItems, Written.itemsTokens_cons_cons]
    simp [Function.comp_def]

theorem scanFrom_fieldsChars {name : String} {v : Value} {fields : List (String × Value)}
    (h : ∀ f ∈ (name, v) :: fields, f.2.Scans) (rest : List Char) :
    scanFrom .between (Value.fieldsChars ((name, v) :: fields) ++ '\x7d' :: rest) =
      (scanFrom .between rest).map
        (Written.entriesTokens (Value.writtenFields ((name, v) :: fields)) ++
          .closeObject :: ·) := by
  induction fields generalizing name v with
  | nil =>
    rw [Value.fieldsChars, List.append_assoc, scanFrom_stringChars, List.cons_append,
      scanFrom_mark rfl, h (name, v) (by simp) _ (follows_mark (by simp) rest), scanFrom_mark rfl]
    simp only [Value.writtenFields, Written.entriesTokens]
    simp [Function.comp_def]
  | cons f fields ih =>
    have hrest := ih fun x hx => h x (List.mem_cons_of_mem _ hx)
    rw [fieldsChars_cons_cons]
    simp only [List.append_assoc, List.cons_append]
    rw [scanFrom_stringChars, scanFrom_mark rfl,
      h (name, v) (by simp) _ (follows_mark (by simp) _), scanFrom_mark rfl, hrest]
    simp only [Value.writtenFields, Written.entriesTokens_cons_cons]
    simp [Function.comp_def]

theorem scans {room : Nat} {v : Value} (h : v.Plain room) : v.Scans := by
  induction h with
  | null => exact fun rest hrest => scanFrom_word rfl (by simp) rfl hrest
  | bool b =>
    cases b with
    | true => exact fun rest hrest => scanFrom_word rfl (by simp) rfl hrest
    | false => exact fun rest hrest => scanFrom_word rfl (by simp) rfl hrest
  | natural n => exact fun rest hrest => scanFrom_natural (fun d hd => step_start hd) _ hrest
  | negative hn =>
    intro rest hrest
    rw [Value.chars, Number.chars, List.cons_append,
      scanFrom_silent (k := .numeral .sign { negative := true }) rfl]
    exact scanFrom_natural (fun d hd => step_sign hd _) _ hrest
  | string s => exact fun rest hrest => scanFrom_stringChars s rest
  | @array room items h ih =>
    intro rest hrest
    simp only [Value.chars, Value.written, List.append_assoc, List.cons_append, List.nil_append]
    rw [scanFrom_mark rfl]
    cases items with
    | nil =>
      rw [Value.itemsChars, List.nil_append, scanFrom_mark rfl, Option.map_map]
      rfl
    | cons v items =>
      rw [scanFrom_itemsChars ih, Option.map_map]
      simp [Written.tokens, Function.comp_def]
  | @object room fields h ih =>
    intro rest hrest
    simp only [Value.chars, Value.written, List.append_assoc, List.cons_append, List.nil_append]
    rw [scanFrom_mark rfl]
    cases fields with
    | nil =>
      rw [Value.fieldsChars, List.nil_append, scanFrom_mark rfl, Option.map_map]
      rfl
    | cons f fields =>
      rw [scanFrom_fieldsChars ih, Option.map_map]
      simp [Written.tokens, Function.comp_def]

/-! ### Trees to values -/

theorem text?_unit {u : UInt16} (h : (Text.Utf16.isHigh u || Text.Utf16.isLow u) = false)
    (ps : List Piece) :
    Piece.text? (.unit u :: ps) = (Piece.text? ps).map (Text.Utf16.single u :: ·) := by
  obtain ⟨hhigh, hlow⟩ := Bool.or_eq_false_iff.mp h
  rcases ps with _ | ⟨c | v, ps⟩ <;> simp [Piece.text?, hhigh, hlow]

theorem text?_ofChars (cs : List Char) : Piece.text? (cs.map Piece.ofChar) = some cs := by
  induction cs with
  | nil => rfl
  | cons c cs ih =>
    rw [List.map_cons, Piece.ofChar]
    split
    · next h =>
      have hcontrol : ∀ n : Fin 0x20, (Text.Utf16.isHigh (.ofNat n.val) ||
          Text.Utf16.isLow (.ofNat n.val)) = false ∧
          Text.Utf16.single (.ofNat n.val) = Char.ofNat n.val := by decide
      obtain ⟨hsingle, hchar⟩ := hcontrol ⟨c.toNat, h.2⟩
      rw [text?_unit hsingle, ih, hchar, Char.ofNat_toNat]
      rfl
    · rw [Piece.text?, ih]
      rfl

theorem text?_ofString (s : String) : Piece.text? (Piece.ofString s) = some s.toList :=
  text?_ofChars s.toList

theorem le_foldl_digits (ds : List Nat) (k : Nat) : k ≤ ds.foldl (fun n d => n * 10 + d) k := by
  induction ds generalizing k with
  | nil => exact Nat.le_refl k
  | cons d ds ih => exact Nat.le_trans (by omega) (ih (k * 10 + d))

/-- All digits are taken where their number fits 64 bits. -/
theorem gather_eq {ds : List Nat} {k : Nat}
    (h : ds.foldl (fun n d => n * 10 + d) k < UInt64.size) :
    Numeral.gather k ds = (ds.foldl (fun n d => n * 10 + d) k, []) := by
  induction ds generalizing k with
  | nil => rfl
  | cons d ds ih =>
    have hle := le_foldl_digits ds (k * 10 + d)
    rw [Numeral.gather, if_pos (Nat.lt_of_le_of_lt hle h), ih h]
    rfl

theorem gather_atLeast {n : Nat} (h : n < UInt64.size) :
    Numeral.gather 0 (Digits.atLeast 10 1 n) = (n, []) := by
  have hvalue : (Digits.atLeast 10 1 n).foldl (fun n d => n * 10 + d) 0 = n :=
    Digits.value_atLeast (by decide) n
  rw [gather_eq (hvalue.symm ▸ h), hvalue]

theorem number?_natural (n : UInt64) :
    (Numeral.ofWhole false n.toNat).number? = some (.natural n) := by
  rw [Numeral.number?, Numeral.ofWhole, gather_atLeast n.toNat_lt_size]
  simp

theorem number?_negative {n : Int64} (h : n.toInt < 0) :
    (Numeral.ofWhole true n.toInt.natAbs).number? = some (.negative n) := by
  have hle := n.le_toInt
  have habs : n.toInt.natAbs ≤ 0x8000000000000000 := by omega
  have hneg : -(n.toInt.natAbs : Int) = n.toInt := by omega
  rw [Numeral.number?, Numeral.ofWhole,
    gather_atLeast (Nat.lt_of_le_of_lt habs (by decide))]
  simp only
  rw [if_neg (by decide), if_pos ⟨by omega, habs⟩, hneg, Int64.ofInt_toInt]

namespace Value

/-- The tree of a value has that value. -/
theorem value?_written {room : Nat} {v : Value} (h : v.Plain room) :
    v.written.value? room = some v := by
  induction h with
  | null => rfl
  | bool b => rfl
  | natural n => rw [written, Written.value?, number?_natural, Option.map_some]
  | negative hn => rw [written, Written.value?, number?_negative hn, Option.map_some]
  | string s =>
    rw [written, Written.value?, text?_ofString, Option.map_some, ofChars, String.ofList_toList]
  | @array room items h ih =>
    have hitems : Written.values? room (writtenItems items) = some items := by
      clear h
      induction items with
      | nil => rfl
      | cons v items ihItems =>
        obtain ⟨hv, hrest⟩ := List.forall_mem_cons.mp ih
        rw [writtenItems, Written.values?, hv, ihItems hrest]
        rfl
    rw [written, Written.value?, hitems, Option.map_some]
  | @object room fields h ih =>
    have hfields : Written.fields? room (writtenFields fields) = some fields := by
      clear h
      induction fields with
      | nil => rfl
      | cons f fields ihFields =>
        obtain ⟨hf, hrest⟩ := List.forall_mem_cons.mp ih
        rw [writtenFields, Written.fields?, text?_ofString, hf, ihFields hrest]
        simp
    rw [written, Written.value?, hfields, Option.map_some]

/-- The text of a value is written as its tree. -/
theorem ofChars?_text {room : Nat} {v : Value} (h : v.Plain room) :
    Written.ofChars? v.text.toList = some v.written := by
  have hscan : scan v.chars = some v.written.tokens := by
    have hchars := scans h [] fun c hc => absurd hc (by simp)
    simpa [scan, scanFrom, Mode.close] using hchars
  rw [text, String.toList_ofList, Written.ofChars?, hscan]
  exact Written.ofTokens?_tokens v.written

/-- The text of a value is read back as that value. -/
theorem read?_text {v : Value} (h : v.Plain maxDepth) : read? v.text = some v := by
  rw [read?, ofChars?_text h]
  exact value?_written h

end Value

end ConsoleOnline.Json
