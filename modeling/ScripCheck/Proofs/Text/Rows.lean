import ScripCheck.Proofs.Source.LineAround
import ScripCheck.Token.Dump

/-!
# Texts in rows

* `lines_unlines`: texts that stand on one line each are the lines of what they are written to.
* `unlines_injective`: so they can be read back.
* `append_cons_injective`: a part of a row that ends at a character can be read back if the character
  is not in it. `append_injective_of_forall`: so can a part that ends where a property does.
-/

namespace ScripCheck

variable {α : Type} {c : Char} {us vs ws xs : List Char} {rows rows' : List String}

theorem lines_append_newline (hus : Unbroken us) (vs : List Char) :
    lines (us ++ '\n' :: vs) = us :: lines vs := by
  induction us with
  | nil => exact lines_break rfl
  | cons c us ih =>
    obtain ⟨⟨hr, hn⟩, hus⟩ := unbroken_cons.mp hus
    exact lines_char hr hn (ih hus)

theorem unlines_cons (row : String) (rows : List String) :
    (unlines (row :: rows)).toList = row.toList ++ '\n' :: (unlines rows).toList := by
  simp [unlines, String.toList_join]

/-- Each row is a line, and the last line is empty. -/
theorem lines_unlines (h : ∀ row ∈ rows, Unbroken row.toList) :
    lines (unlines rows).toList = rows.map String.toList ++ [[]] := by
  induction rows with
  | nil => rfl
  | cons row rows ih =>
    obtain ⟨hrow, hrows⟩ := List.forall_mem_cons.mp h
    rw [unlines_cons, lines_append_newline hrow, ih hrows]
    rfl

theorem not_mem_unlines (h : ∀ row ∈ rows, Unbroken row.toList) :
    '\r' ∉ (unlines rows).toList := by
  induction rows with
  | nil => exact List.not_mem_nil
  | cons row rows ih =>
    obtain ⟨hrow, hrows⟩ := List.forall_mem_cons.mp h
    rw [unlines_cons, List.mem_append, List.mem_cons, not_or, not_or]
    exact ⟨fun hr => (hrow '\r' hr).1 rfl, by decide, ih hrows⟩

/-- Texts that stand on one line each can be read back. -/
theorem unlines_injective (h : ∀ row ∈ rows, Unbroken row.toList)
    (h' : ∀ row ∈ rows', Unbroken row.toList) (heq : unlines rows = unlines rows') :
    rows = rows' := by
  have hlines : lines (unlines rows).toList = lines (unlines rows').toList := by rw [heq]
  rw [lines_unlines h, lines_unlines h'] at hlines
  exact (List.map_inj_right fun _ _ => String.toList_inj.mp).mp (List.append_cancel_right hlines)

/-- What stands before the first of some character can be read back. -/
theorem append_cons_injective (hus : c ∉ us) (hws : c ∉ ws) (h : us ++ c :: vs = ws ++ c :: xs) :
    us = ws ∧ vs = xs := by
  induction us generalizing ws with
  | nil =>
    cases ws with
    | nil => exact ⟨rfl, (List.cons.inj h).2⟩
    | cons d ws => exact absurd ((List.cons.inj h).1 ▸ List.mem_cons_self) hws
  | cons d us ih =>
    cases ws with
    | nil => exact absurd ((List.cons.inj h).1 ▸ List.mem_cons_self) hus
    | cons e ws =>
      obtain ⟨rfl, hrest⟩ := List.cons.inj h
      obtain ⟨rfl, rfl⟩ := ih (mt (List.mem_cons_of_mem d) hus) (mt (List.mem_cons_of_mem d) hws) hrest
      exact ⟨rfl, rfl⟩

/-- Of two lists, the first of which has only elements with a property and the second of which
starts with none, each can be read back. -/
theorem append_injective_of_forall {P : α → Prop} {as bs as' bs' : List α} (has : ∀ a ∈ as, P a)
    (hbs : ∀ b ∈ bs.head?, ¬ P b) (has' : ∀ a ∈ as', P a) (hbs' : ∀ b ∈ bs'.head?, ¬ P b)
    (h : as ++ bs = as' ++ bs') : as = as' ∧ bs = bs' := by
  induction as generalizing as' with
  | nil =>
    cases as' with
    | nil => exact ⟨rfl, h⟩
    | cons a as' =>
      rw [List.nil_append] at h
      exact absurd (has' a List.mem_cons_self) (hbs a (by simp [h]))
  | cons a as ih =>
    cases as' with
    | nil =>
      rw [List.nil_append] at h
      exact absurd (has a List.mem_cons_self) (hbs' a (by simp [← h]))
    | cons a' as' =>
      obtain ⟨rfl, hrest⟩ := List.cons.inj h
      obtain ⟨rfl, rfl⟩ := ih (List.forall_mem_cons.mp has).2 (List.forall_mem_cons.mp has').2 hrest
      exact ⟨rfl, rfl⟩

end ScripCheck
