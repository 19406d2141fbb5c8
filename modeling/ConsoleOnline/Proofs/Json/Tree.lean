import ConsoleOnline.Json.Written

/-!
A tree is built again from its own tokens. While a value is read, the unclosed arrays and objects
around it stay as they are, and after its last token it stands in its place among them.
-/
namespace ConsoleOnline.Json

namespace Written

mutual

/-- The tokens of a tree, with a comma between two items or entries and nowhere else. -/
def tokens : Written → List Token
  | .null => [.null]
  | .bool b => [.bool b]
  | .number n => [.number n]
  | .string ps => [.string ps]
  | .array items => .openArray :: itemsTokens items ++ [.closeArray]
  | .object entries => .openObject :: entriesTokens entries ++ [.closeObject]

def itemsTokens : List Written → List Token
  | [] => []
  | [w] => w.tokens
  | w :: rest => w.tokens ++ .comma :: itemsTokens rest

def entriesTokens : List (List Piece × Written) → List Token
  | [] => []
  | [(key, w)] => .string key :: .colon :: w.tokens
  | (key, w) :: rest => .string key :: .colon :: w.tokens ++ .comma :: entriesTokens rest

end

theorem itemsTokens_cons_cons (w x : Written) (rest : List Written) :
    itemsTokens (w :: x :: rest) = w.tokens ++ .comma :: itemsTokens (x :: rest) := by
  rw [itemsTokens]
  simp

theorem entriesTokens_cons_cons (key : List Piece) (w : Written) (e : List Piece × Written)
    (rest : List (List Piece × Written)) :
    entriesTokens ((key, w) :: e :: rest) =
      .string key :: .colon :: w.tokens ++ .comma :: entriesTokens (e :: rest) := by
  rw [entriesTokens]
  simp

theorem entriesTokens_eq_cons (key : List Piece) (w : Written)
    (rest : List (List Piece × Written)) :
    ∃ ts, entriesTokens ((key, w) :: rest) = .string key :: ts := by
  cases rest with
  | nil => exact ⟨_, by rw [entriesTokens]⟩
  | cons e rest => exact ⟨_, by rw [entriesTokens_cons_cons]; rfl⟩

/-- Only an empty array is closed by its first token. -/
theorem itemsTokens_eq_cons (w : Written) (rest : List Written) :
    ∃ t ts, itemsTokens (w :: rest) = t :: ts ∧ t ≠ .closeArray := by
  have hw : ∃ t ts, w.tokens = t :: ts ∧ t ≠ .closeArray := by
    cases w <;> exact ⟨_, _, by rw [tokens]; try rfl, by simp⟩
  obtain ⟨t, ts, ht, hne⟩ := hw
  cases rest with
  | nil => exact ⟨t, ts, by rw [itemsTokens, ht], hne⟩
  | cons x rest => exact ⟨t, _, by rw [itemsTokens_cons_cons, ht, List.cons_append], hne⟩

theorem step_itemOrClose {t : Token} (h : t ≠ .closeArray) (around : List Frame) :
    Expected.step (.itemOrClose around) t = Expected.step (.value (.array [] :: around)) t := by
  cases t <;> first | exact absurd rfl h | rfl

/-- Induction on a tree, with a hypothesis for each item of an array and each entry of an object. -/
@[elab_as_elim]
theorem ind {p : Written → Prop} (w : Written) (null : p .null) (bool : ∀ b, p (.bool b))
    (number : ∀ n, p (.number n)) (string : ∀ ps, p (.string ps))
    (array : ∀ items, (∀ x ∈ items, p x) → p (.array items))
    (object : ∀ entries, (∀ e ∈ entries, p e.2) → p (.object entries)) : p w :=
  @Written.rec p (fun items => ∀ x ∈ items, p x) (fun entries => ∀ e ∈ entries, p e.2)
    (fun e => p e.2) null bool number string array object
    (fun _ h => absurd h List.not_mem_nil)
    (fun _ _ hx hrest => List.forall_mem_cons.mpr ⟨hx, hrest⟩)
    (fun _ h => absurd h List.not_mem_nil)
    (fun _ _ he hrest => List.forall_mem_cons.mpr ⟨he, hrest⟩)
    (fun _ _ h => h) w

/-- What reading the tokens of a value does: it finishes the value, whatever is around it. -/
def Finishes (w : Written) : Prop :=
  ∀ around, w.tokens.foldlM Expected.step (.value around) = some (Expected.finish around w)

theorem foldlM_itemsTokens {w : Written} {items : List Written}
    (h : ∀ x ∈ w :: items, Finishes x) (around : List Frame) (before : List Written) :
    (itemsTokens (w :: items) ++ [Token.closeArray]).foldlM Expected.step
        (.value (.array before :: around)) =
      some (Expected.finish around (.array (before.reverse ++ w :: items))) := by
  induction items generalizing w before with
  | nil =>
    rw [itemsTokens, List.foldlM_append, h w (by simp), ← List.reverse_cons]
    rfl
  | cons x items ih =>
    have hrest := ih (fun y hy => h y (List.mem_cons_of_mem w hy)) (w :: before)
    rw [List.reverse_cons, List.append_assoc] at hrest
    rw [itemsTokens_cons_cons, List.append_assoc, List.foldlM_append, h w (by simp)]
    exact hrest

theorem foldlM_entriesTokens {key : List Piece} {w : Written}
    {entries : List (List Piece × Written)} (h : ∀ e ∈ (key, w) :: entries, Finishes e.2)
    (around : List Frame) (before : List (List Piece × Written)) :
    (entriesTokens ((key, w) :: entries) ++ [Token.closeObject]).foldlM Expected.step
        (.entryKey around before) =
      some (Expected.finish around (.object (before.reverse ++ (key, w) :: entries))) := by
  induction entries generalizing key w before with
  | nil =>
    have hw := h (key, w) (by simp) (.object before key :: around)
    rw [entriesTokens, ← List.reverse_cons]
    -- the name and the colon lead to the value, within an object that waits for it
    change (w.tokens ++ [Token.closeObject]).foldlM Expected.step
      (.value (.object before key :: around)) = _
    rw [List.foldlM_append, hw]
    rfl
  | cons e entries ih =>
    have hw := h (key, w) (by simp) (.object before key :: around)
    have hrest := ih (fun y hy => h y (List.mem_cons_of_mem _ hy)) ((key, w) :: before)
    rw [List.reverse_cons, List.append_assoc] at hrest
    rw [entriesTokens_cons_cons, List.append_assoc]
    change (w.tokens ++ (Token.comma :: entriesTokens (e :: entries) ++
      [Token.closeObject])).foldlM Expected.step (.value (.object before key :: around)) = _
    rw [List.foldlM_append, hw]
    exact hrest

theorem finishes (w : Written) : Finishes w := by
  induction w using Written.ind with
  | null => exact fun _ => rfl
  | bool b => exact fun _ => rfl
  | number n => exact fun _ => rfl
  | string ps => exact fun _ => rfl
  | array items ih =>
    intro around
    cases items with
    | nil => rfl
    | cons x items =>
      have hitems := foldlM_itemsTokens ih around []
      obtain ⟨t, ts, ht, hne⟩ := itemsTokens_eq_cons x items
      rw [ht, List.cons_append, List.foldlM_cons, ← step_itemOrClose hne, ← List.foldlM_cons,
        ← List.cons_append, ← ht] at hitems
      exact hitems
  | object entries ih =>
    intro around
    cases entries with
    | nil => rfl
    | cons e entries =>
      have hentries := foldlM_entriesTokens ih around []
      obtain ⟨ts, hts⟩ := entriesTokens_eq_cons e.1 e.2 entries
      rw [hts] at hentries
      rw [tokens, hts]
      exact hentries

/-- A tree is what its tokens build. -/
theorem ofTokens?_tokens (w : Written) : ofTokens? w.tokens = some w := by
  rw [ofTokens?, finishes]
  rfl

end Written

end ConsoleOnline.Json
