import DirectoryGateway.Text.Blank

/-!
# Cutting texts

A text that is cut at every separator gives parts without separators, and with separators between them they are the text.
Cut short at an end, it is what begins, or ends, with an element that is kept.
-/

namespace DirectoryGateway.Text

/-! ### Ends -/

section Ends

variable {α : Type} {p : α → Bool} {xs rest : List α}

theorem dropWhile_eq_iff :
    xs.dropWhile p = rest ↔
      (∀ x, rest.head? = some x → p x = false) ∧ ∃ gone, xs = gone ++ rest ∧ ∀ x ∈ gone, p x = true := by
  constructor
  · intro h
    subst h
    refine ⟨fun x hx => ?_, xs.takeWhile p, List.takeWhile_append_dropWhile.symm, fun x hx => ?_⟩
    · have hkept := List.head?_dropWhile_not p xs
      rw [hx] at hkept
      simpa using hkept
    · exact List.all_eq_true.mp List.all_takeWhile x hx
  · rintro ⟨hfirst, gone, rfl, hgone⟩
    rw [List.dropWhile_append_of_pos hgone]
    cases rest with
    | nil => rfl
    | cons x rest => rw [List.dropWhile_cons, hfirst x rfl, if_neg Bool.false_ne_true]

theorem reverse_dropWhile_eq_iff :
    (xs.reverse.dropWhile p).reverse = rest ↔
      (∀ x, rest.getLast? = some x → p x = false) ∧ ∃ gone, xs = rest ++ gone ∧ ∀ x ∈ gone, p x = true := by
  rw [List.reverse_eq_iff, dropWhile_eq_iff, List.head?_reverse]
  apply and_congr_right
  intro _
  constructor
  · rintro ⟨gone, hsplit, hgone⟩
    rw [List.reverse_eq_iff, List.reverse_append, List.reverse_reverse] at hsplit
    exact ⟨gone.reverse, hsplit, fun x hx => hgone x (List.mem_reverse.mp hx)⟩
  · rintro ⟨gone, rfl, hgone⟩
    exact ⟨gone.reverse, List.reverse_append, fun x hx => hgone x (List.mem_reverse.mp hx)⟩

end Ends

/-! ### Separators -/

/-- What stands before the first separator, and what stands after it. -/
theorem eq_of_append_sep {α : Type} {sep : α} {front front' rest rest' : List α} (h : sep ∉ front)
    (h' : sep ∉ front') (same : front ++ sep :: rest = front' ++ sep :: rest') :
    front = front' ∧ rest = rest' := by
  induction front generalizing front' with
  | nil =>
    cases front' with
    | nil => exact ⟨rfl, List.tail_eq_of_cons_eq same⟩
    | cons x front' =>
      have hx : sep = x := List.head_eq_of_cons_eq same
      exact absurd (hx ▸ List.mem_cons_self) h'
  | cons x front ih =>
    cases front' with
    | nil =>
      have hx : x = sep := List.head_eq_of_cons_eq same
      exact absurd (hx ▸ List.mem_cons_self) h
    | cons y front' =>
      rw [List.mem_cons, not_or] at h h'
      obtain ⟨rfl, rfl⟩ := ih h.2 h'.2 (List.tail_eq_of_cons_eq same)
      rw [List.head_eq_of_cons_eq same]
      exact ⟨rfl, rfl⟩

theorem not_mem_of_mem_splitOn {α : Type} [BEq α] [LawfulBEq α] {sep : α} {xs part : List α}
    (h : part ∈ xs.splitOn sep) : sep ∉ part := by
  induction xs generalizing part with
  | nil =>
    simp only [List.splitOn_nil, List.mem_singleton] at h
    simp [h]
  | cons x xs ih =>
    rw [List.splitOn_cons_eq_if_modifyHead] at h
    cases hx : x == sep with
    | true =>
      rw [hx] at h
      rcases List.mem_cons.mp h with rfl | hmem
      · simp
      · exact ih hmem
    | false =>
      have hparts : xs.splitOn sep ≠ [] := List.splitOn_ne_nil sep xs
      rw [hx] at h
      cases hp : xs.splitOn sep with
      | nil => exact absurd hp hparts
      | cons first rest =>
        rw [hp] at h ih
        rcases List.mem_cons.mp h with rfl | hmem
        · have hfirst : sep ∉ first := ih List.mem_cons_self
          have hne : sep ≠ x := by
            intro he
            simp [he] at hx
          simp [hne, hfirst]
        · exact ih (List.mem_cons_of_mem _ hmem)

/-- A function that cuts step by step at a separator is the cut of the library. -/
theorem eq_splitOn {α : Type} [DecidableEq α] {sep : α}
    {cut : List α → List (List α)} (nil : cut [] = [[]])
    (cons : ∀ x xs, cut (x :: xs) =
      if x = sep then [] :: cut xs
      else
        match cut xs with
        | [] => [[x]]
        | part :: parts => (x :: part) :: parts) (xs : List α) : cut xs = xs.splitOn sep := by
  induction xs with
  | nil => rw [nil, List.splitOn_nil]
  | cons x xs ih =>
    rw [cons, ih, List.splitOn_cons_eq_if_modifyHead]
    by_cases h : x = sep
    · simp [h]
    · have hne : (x == sep) = false := by simpa using h
      have hparts : xs.splitOn sep ≠ [] := List.splitOn_ne_nil sep xs
      rw [if_neg h, hne]
      cases hp : xs.splitOn sep with
      | nil => exact absurd hp hparts
      | cons part parts => rfl

theorem splitAt_eq_splitOn (sep : Char) (cs : List Char) : splitAt sep cs = cs.splitOn sep := by
  refine eq_splitOn rfl ?_ cs
  intro c cs
  rw [splitAt]
  cases splitAt sep cs <;> rfl

end DirectoryGateway.Text
