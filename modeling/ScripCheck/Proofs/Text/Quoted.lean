import Mathlib.Algebra.Group.Nat.Defs
import ScripCheck.Proofs.Source.LineAround
import ScripCheck.Text.Digit
import ScripCheck.Text.Quoted

/-!
# Quoted text is read back

Whichever characters are printable, a quoted text stands on one line, and it is the text of no other
one.

* `readEscape`: the character that an escaped text starts with, and what follows it.
  `readEscape_escape`: it is the one that was escaped.
* `unbroken_quotedBy`: there is no line break in a quoted text.
* `quotedBy_injective`: different texts are quoted differently.
-/

namespace ScripCheck

variable {printable : Char → Bool} {mark c : Char} {cs us vs : List Char}

/-! ## Hexadecimal digits -/

/-- The number that a row of hexadecimal digits stands for. -/
def hexValue (ds : List Char) : Nat := ds.foldl (fun n d => 16 * n + (digitIn? 16 d).getD 0) 0

theorem length_hexDigits (width n : Nat) : (hexDigits width n).length = width := by
  induction width generalizing n with
  | zero => rfl
  | succ width ih => rw [hexDigits, List.length_append, ih, List.length_singleton]

theorem hexValue_hexDigits (width n : Nat) : hexValue (hexDigits width n) = n % 16 ^ width := by
  have hdigit : ∀ d < 16, (digitIn? 16 (Nat.digitChar d)).getD 0 = d := by decide
  induction width generalizing n with
  | zero => rw [Nat.pow_zero, Nat.mod_one]; rfl
  | succ width ih =>
    have hlast := hdigit (n % 16) (Nat.mod_lt n (by decide))
    have hconcat (ds : List Char) (d : Char) :
        hexValue (ds ++ [d]) = 16 * hexValue ds + (digitIn? 16 d).getD 0 := by
      simp [hexValue, List.foldl_append]
    rw [hexDigits, hconcat, ih, hlast, Nat.pow_succ', Nat.mod_mul, Nat.add_comm]

theorem unbroken_hexDigits (width n : Nat) : Unbroken (hexDigits width n) := by
  have hdigit : ∀ d < 16, Nat.digitChar d ≠ '\r' ∧ Nat.digitChar d ≠ '\n' := by decide
  induction width generalizing n with
  | zero => exact unbroken_nil
  | succ width ih =>
    refine unbroken_append.mpr ⟨ih (n / 16), List.forall_mem_singleton.mpr ?_⟩
    exact hdigit (n % 16) (Nat.mod_lt n (by decide))

/-! ## Escaped characters -/

/-- The number of the character that stands behind a backslash, and what follows it. -/
def readCode : List Char → Nat × List Char
  | [] => (0, [])
  | 'n' :: cs => ('\n'.toNat, cs)
  | 'r' :: cs => ('\r'.toNat, cs)
  | 't' :: cs => ('\t'.toNat, cs)
  | 'x' :: cs => (hexValue (cs.take 2), cs.drop 2)
  | 'u' :: cs => (hexValue (cs.take 4), cs.drop 4)
  | 'U' :: cs => (hexValue (cs.take 8), cs.drop 8)
  | c :: cs => (c.toNat, cs)

/-- The number of the character that an escaped text starts with, and what follows it. -/
def readEscape : List Char → Nat × List Char
  | [] => (0, [])
  | c :: cs => if c = '\\' then readCode cs else (c.toNat, cs)

/-- The two quotes that a text can be delimited by. -/
def IsMark (mark : Char) : Prop := mark = '\'' ∨ mark = '"'

theorem isMark_quoteMark (cs : List Char) : IsMark (quoteMark cs) := by
  unfold quoteMark IsMark
  split <;> simp

/-- A character is not lost if its number has no more digits than are written. -/
theorem readHex (width : Nat) (h : c.toNat < 16 ^ width) (us : List Char) :
    (hexValue ((hexDigits width c.toNat ++ us).take width),
      (hexDigits width c.toNat ++ us).drop width) = (c.toNat, us) := by
  have hlength := length_hexDigits width c.toNat
  rw [List.take_left' hlength, List.drop_left' hlength, hexValue_hexDigits, Nat.mod_eq_of_lt h]

/-- An escaped character is read back, whatever follows it. -/
theorem readEscape_escape (hmark : IsMark mark) (c : Char) (us : List Char) :
    readEscape (escape printable mark c ++ us) = (c.toNat, us) := by
  unfold escape
  split
  · next h =>
    rcases h with rfl | rfl
    · rcases hmark with rfl | rfl <;> rfl
    · rfl
  · next hplain =>
    split
    · next h => rw [h]; rfl
    split
    · next h => rw [h]; rfl
    split
    · next h => rw [h]; rfl
    split
    · exact if_neg (not_or.mp hplain).2
    split
    · next h => exact readHex 2 h us
    split
    · next h => exact readHex 4 h us
    · exact readHex 8 c.val.toNat_lt us

theorem escape_ne_nil (printable : Char → Bool) (mark c : Char) : escape printable mark c ≠ [] := by
  unfold escape
  repeat' split
  all_goals exact List.cons_ne_nil _ _

theorem unbroken_escape (hmark : IsMark mark) (c : Char) : Unbroken (escape printable mark c) := by
  have hcode (k : Char) (width : Nat) (hk : k ≠ '\r' ∧ k ≠ '\n') :
      Unbroken ('\\' :: k :: hexDigits width c.toNat) :=
    unbroken_cons.mpr ⟨by decide, unbroken_cons.mpr ⟨hk, unbroken_hexDigits width c.toNat⟩⟩
  unfold escape
  split
  · next h =>
    have hc : c ≠ '\r' ∧ c ≠ '\n' := by
      rcases h with rfl | rfl
      · rcases hmark with rfl | rfl <;> decide
      · decide
    simp [Unbroken, hc]
  split
  · simp [Unbroken]
  split
  · simp [Unbroken]
  split
  · simp [Unbroken]
  split
  · simp [Unbroken, *]
  split
  · exact hcode 'x' 2 (by decide)
  split
  · exact hcode 'u' 4 (by decide)
  · exact hcode 'U' 8 (by decide)

/-! ## Quoted texts -/

/-- Escaped texts are read back character by character. -/
theorem flatMap_escape_injective (hmark : IsMark mark)
    (h : us.flatMap (escape printable mark) = vs.flatMap (escape printable mark)) : us = vs := by
  induction us generalizing vs with
  | nil =>
    cases vs with
    | nil => rfl
    | cons d vs => exact absurd (List.append_eq_nil_iff.mp h.symm).1 (escape_ne_nil printable mark d)
  | cons c us ih =>
    cases vs with
    | nil => exact absurd (List.append_eq_nil_iff.mp h).1 (escape_ne_nil printable mark c)
    | cons d vs =>
      rw [List.flatMap_cons, List.flatMap_cons] at h
      have hread := congrArg readEscape h
      rw [readEscape_escape hmark, readEscape_escape hmark] at hread
      obtain ⟨hfirst, hrest⟩ := Prod.mk.inj hread
      rw [Char.toNat_inj.mp hfirst, ih hrest]

theorem toList_quotedBy (s : String) : (quotedBy printable s).toList =
    quoteMark s.toList :: (s.toList.flatMap (escape printable (quoteMark s.toList)) ++
      [quoteMark s.toList]) := String.toList_ofList

/-- Different texts are quoted differently. -/
theorem quotedBy_injective {s t : String} (h : quotedBy printable s = quotedBy printable t) :
    s = t := by
  have hlist := congrArg String.toList h
  rw [toList_quotedBy, toList_quotedBy] at hlist
  obtain ⟨hmark, hlist⟩ := List.cons.inj hlist
  -- both texts start with their mark, so they are escaped for the same one
  rw [← hmark] at hlist
  have hinner := List.append_cancel_right hlist
  exact String.toList_inj.mp (flatMap_escape_injective (isMark_quoteMark _) hinner)

/-- A quoted text stands on one line. -/
theorem unbroken_quotedBy (printable : Char → Bool) (s : String) :
    Unbroken (quotedBy printable s).toList := by
  have hmark := isMark_quoteMark s.toList
  have hquote : quoteMark s.toList ≠ '\r' ∧ quoteMark s.toList ≠ '\n' := by
    rcases hmark with h | h <;> simp [h]
  rw [toList_quotedBy]
  refine unbroken_cons.mpr ⟨hquote, unbroken_append.mpr ⟨fun c hc => ?_, ?_⟩⟩
  · obtain ⟨d, -, hc⟩ := List.mem_flatMap.mp hc
    exact unbroken_escape hmark d c hc
  · exact List.forall_mem_singleton.mpr hquote

end ScripCheck
