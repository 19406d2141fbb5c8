import ConsoleOnline.Text.Blank
import Mathlib.Data.List.TakeWhile

/-!
Blanks around a text. What `trim` drops in front and behind is blank, and a text without blanks is
what it leaves of itself between any blanks.
-/
namespace ConsoleOnline.Text

theorem exists_trim (cs : List Char) : ∃ before after, cs = before ++ trim cs ++ after ∧
    (∀ c ∈ before, isBlank c) ∧ ∀ c ∈ after, isBlank c := by
  refine ⟨cs.takeWhile isBlank, ((trimStart cs).reverse.takeWhile isBlank).reverse, ?_, ?_, ?_⟩
  · rw [trim, trimEnd, List.append_assoc, ← List.reverse_append, List.takeWhile_append_dropWhile,
      List.reverse_reverse, trimStart, List.takeWhile_append_dropWhile]
  · exact fun c hc => List.mem_takeWhile_imp hc
  · exact fun c hc => List.mem_takeWhile_imp (List.mem_reverse.mp hc)

theorem dropWhile_isBlank_eq_self {cs : List Char} (h : ∀ c ∈ cs, isBlank c = false) :
    cs.dropWhile isBlank = cs := by
  cases cs with
  | nil => rfl
  | cons c cs => simp [h c]

theorem trimEnd_append_blanks {cs after : List Char} (h : ∀ c ∈ cs, isBlank c = false)
    (hafter : ∀ c ∈ after, isBlank c) : trimEnd (cs ++ after) = cs := by
  rw [trimEnd, List.reverse_append, List.dropWhile_append_of_pos (by simpa using hafter),
    dropWhile_isBlank_eq_self (by simpa using h), List.reverse_reverse]

theorem trim_between {before cs after : List Char} (hbefore : ∀ c ∈ before, isBlank c)
    (h : ∀ c ∈ cs, isBlank c = false) (hafter : ∀ c ∈ after, isBlank c) :
    trim (before ++ cs ++ after) = cs := by
  rw [trim, trimStart, List.append_assoc, List.dropWhile_append_of_pos hbefore]
  cases cs with
  | nil =>
    rw [List.nil_append, List.dropWhile_eq_nil_iff.mpr hafter]
    rfl
  | cons c cs =>
    rw [List.cons_append, List.dropWhile_cons_of_neg (by simp [h c]), ← List.cons_append]
    exact trimEnd_append_blanks h hafter

/-- What is no blank is not dropped from the end. -/
theorem exists_trim_concat (cs : List Char) {c : Char} (h : isBlank c = false) :
    ∃ ds, trim (cs ++ [c]) = ds ++ [c] := by
  have hstart : ∃ ds, trimStart (cs ++ [c]) = ds ++ [c] := by
    induction cs with
    | nil => exact ⟨[], by simp [trimStart, h]⟩
    | cons b cs ih =>
      by_cases hb : isBlank b
      · rwa [List.cons_append, trimStart_cons_blank hb]
      · exact ⟨b :: cs, by simp [trimStart, hb]⟩
  obtain ⟨ds, hds⟩ := hstart
  refine ⟨ds, ?_⟩
  rw [trim, hds, trimEnd, List.reverse_append]
  simp [h]

end ConsoleOnline.Text
