import ScripCheck.Proofs.Number.Numeral
import ScripCheck.Proofs.Text.Quoted
import ScripCheck.Proofs.Text.Rows

/-!
# Token dumps are read back

A row has a label, two offsets and a quoted text. The label has no blank, the first offset no point
and the second one no blank, so each ends where the next sign stands.

* `Token.row_injective`: a row tells everything about its token.
* `Token.unbroken_row`: there is no line break in a row, whatever the text of the token is.
* `dumpTokens_faithful`: so do dumps, which have one line for each token.
-/

namespace ScripCheck

variable {t u : Token} {ts us : List Token}

/-! ## Labels -/

theorem Kind.blank_not_mem_label (k : Kind) : ' ' ∉ k.label.toList := by
  cases k <;> decide

theorem Kind.label_injective {k l : Kind} (h : k.label = l.label) : k = l := by
  have hread (k : Kind) : ofLabel? k.label = some k := by cases k <;> decide
  exact Option.some.inj ((hread k).symm.trans ((congrArg ofLabel? h).trans (hread l)))

theorem Kind.unbroken_label (k : Kind) : Unbroken k.label.toList := by
  cases k <;> simp [Unbroken, label]

/-! ## Rows -/

theorem point_not_mem_toString (n : Int) : '.' ∉ (toString n).toList := fun h => by
  rcases of_mem_toString h with h | h | h <;> cases h

theorem blank_not_mem_toString (n : Int) : ' ' ∉ (toString n).toList := fun h => by
  rcases of_mem_toString h with h | h | h <;> cases h

theorem unbroken_toString (n : Int) : Unbroken (toString n).toList := fun c hc => by
  constructor <;>
    · rintro rfl
      rcases of_mem_toString hc with h | h | h <;> cases h

/-- The blanks that fill the column of a label. -/
def padding (k : Kind) : List Char := List.replicate (10 - k.label.length) ' '

theorem toList_row (t : Token) : t.row.toList =
    t.kind.label.toList ++ (padding t.kind ++ ' ' :: ((toString t.span.lo).toList ++
      '.' :: '.' :: ((toString t.span.hi).toList ++ ' ' :: (quoted t.text).toList))) := by
  simp [Token.row, padRight, padding]

/-- What stands behind a label: the rest of the column, and the blank after it. -/
theorem padding_append (k : Kind) (cs : List Char) :
    padding k ++ ' ' :: cs = ' ' :: (padding k ++ cs) := by
  have hlast := List.replicate_succ' (n := 10 - k.label.length) (a := ' ')
  rw [padding, List.append_cons, ← hlast, List.replicate_succ, List.cons_append]

/-- A row tells everything about its token. -/
theorem Token.row_injective (h : t.row = u.row) : t = u := by
  obtain ⟨kind, text, ⟨lo, hi⟩⟩ := t
  obtain ⟨kind', text', ⟨lo', hi'⟩⟩ := u
  have hlist := congrArg String.toList h
  rw [toList_row, toList_row, padding_append, padding_append] at hlist
  obtain ⟨hlabel, hlist⟩ := append_cons_injective (Kind.blank_not_mem_label kind)
    (Kind.blank_not_mem_label kind') hlist
  obtain rfl := Kind.label_injective (String.toList_inj.mp hlabel)
  obtain ⟨hlo, hlist⟩ := append_cons_injective (point_not_mem_toString lo)
    (point_not_mem_toString lo') (List.append_cancel_left hlist)
  obtain ⟨hhi, htext⟩ := append_cons_injective (blank_not_mem_toString hi)
    (blank_not_mem_toString hi') (List.cons.inj hlist).2
  obtain rfl := toString_int_injective (String.toList_inj.mp hlo)
  obtain rfl := toString_int_injective (String.toList_inj.mp hhi)
  obtain rfl := quotedBy_injective (String.toList_inj.mp htext)
  rfl

/-- There is no line break in a row. -/
theorem Token.unbroken_row (t : Token) : Unbroken t.row.toList := by
  have hblank : (' ' : Char) ≠ '\r' ∧ (' ' : Char) ≠ '\n' := by decide
  have hpoint : '.' ≠ '\r' ∧ '.' ≠ '\n' := by decide
  have hpadding : Unbroken (padding t.kind) := fun c hc => by
    rw [List.eq_of_mem_replicate hc]
    exact hblank
  rw [toList_row]
  exact unbroken_append.mpr ⟨t.kind.unbroken_label, unbroken_append.mpr ⟨hpadding,
    unbroken_cons.mpr ⟨hblank, unbroken_append.mpr ⟨unbroken_toString _,
      unbroken_cons.mpr ⟨hpoint, unbroken_cons.mpr ⟨hpoint, unbroken_append.mpr
        ⟨unbroken_toString _, unbroken_cons.mpr ⟨hblank, unbroken_quotedBy _ _⟩⟩⟩⟩⟩⟩⟩⟩

/-! ## Dumps -/

/-- Two lists of tokens have the same dump only if they are the same, and there is one line for each
token, which has the break `\n` at its end and no other one. -/
theorem dumpTokens_faithful (ts us : List Token) :
    (dumpTokens ts = dumpTokens us ↔ ts = us) ∧
      lines (dumpTokens ts).toList = ts.map (fun t => t.row.toList) ++ [[]] ∧
      '\r' ∉ (dumpTokens ts).toList := by
  have hrows (ts : List Token) : ∀ row ∈ ts.map Token.row, Unbroken row.toList :=
    List.forall_mem_map.mpr fun t _ => t.unbroken_row
  refine ⟨⟨fun h => ?_, fun h => h ▸ rfl⟩, ?_, not_mem_unlines (hrows ts)⟩
  · exact (List.map_inj_right fun _ _ => Token.row_injective).mp
      (unlines_injective (hrows ts) (hrows us) h)
  · rw [dumpTokens, lines_unlines (hrows ts), List.map_map]
    rfl

end ScripCheck
