import ScripCheck.Files.Tree

/-!
# What can be read at a path

* `Snapshot.readText_denied`: a path that leads to nothing has no text.
* `Path.ofString_name`: a text without a slash is one name.
* `Tree.snapshot_nameTooLong`: a name with too many bytes leads nowhere.
* `NameFits.look`, `NameFits.readText_file`, `NameFits.readText_directory`,
  `NameFits.readText_missing`: what can be read at a name in the working directory.
* `Snapshot.single`: the paths of a directory with one file only.
-/

namespace ScripCheck.Files

variable {files : Snapshot} {p : Path}

theorem Snapshot.readText_denied {d : Denial} (hnul : p.hasNul = false) (h : files p = .error d) :
    files.readText p = .error (.denied d) := by
  simp only [readText, look, hnul, h, Bool.false_eq_true, if_false]

theorem length_le_utf8ByteSize (cs : List Char) :
    cs.length ≤ (String.ofList cs).utf8ByteSize := by
  induction cs with
  | nil => exact Nat.zero_le _
  | cons c cs ih =>
    have hc := c.utf8Size_pos
    rw [← List.singleton_append, String.ofList_append, ← String.singleton_eq_ofList,
      String.utf8ByteSize_append, String.utf8ByteSize_singleton, List.length_append,
      List.length_singleton]
    omega

/-- A text without a slash is the name of something in the working directory. -/
theorem Path.ofString_name {cs : List Char} (hslash : '/' ∉ cs) (hne : cs ≠ [])
    (hdot : cs ≠ ['.']) : Path.ofString (String.ofList cs) = ⟨.here, [String.ofList cs]⟩ := by
  have hroot : Path.rootOf cs = .here := by
    unfold Path.rootOf
    split <;> simp_all
  have hname : String.ofList cs ≠ "" ∧ String.ofList cs ≠ "." :=
    ⟨fun h => hne (String.ofList_injective h), fun h => hdot (String.ofList_injective h)⟩
  rw [Path.ofString, String.toList_ofList, hroot, List.splitOn_eq_singleton hslash]
  simp [hname]

theorem Tree.snapshot_nameTooLong {m : Int} {entries : List (String × Tree)} {name : String}
    (hname : name ≠ "..") (hlong : maxName < name.utf8ByteSize) :
    (directory m entries).snapshot ⟨.here, [name]⟩ = .error .nameTooLong := by
  unfold snapshot
  split
  · rfl
  · simp [follow, hname, hlong]

/-! ## The entries of a directory -/

/-- Some text is a name that a directory can hold. -/
structure NameFits (name : String) : Prop where
  dots : name ≠ ".."
  short : name.utf8ByteSize ≤ Tree.maxName
  nul : '\x00' ∉ name.toList

namespace NameFits

variable {name : String} {entries : List (String × Tree)} {content : List UInt8} {t : Tree}
  {modified : Int}

theorem hasNul (h : NameFits name) : Path.hasNul ⟨.here, [name]⟩ = false := by
  simpa [Path.hasNul] using h.nul

theorem snapshot (h : NameFits name) (m : Int) (entries : List (String × Tree)) :
    (Tree.directory m entries).snapshot ⟨.here, [name]⟩ =
      match entries.lookup name with
      | some t => .ok t.entry
      | none => .error .missing := by
  have htext : Path.toString ⟨.here, [name]⟩ = name := by simp [Path.toString, Root.text]
  have hpath : ¬ Tree.maxPath < name.utf8ByteSize :=
    Nat.not_lt.mpr (Nat.le_trans h.short (by decide))
  have hname : ¬ Tree.maxName < name.utf8ByteSize := Nat.not_lt.mpr h.short
  simp only [Tree.snapshot, htext, hpath, Tree.follow, h.dots, hname, if_false, if_true]
  cases entries.lookup name <;> rfl

theorem look (h : NameFits name) (m : Int) (hlookup : entries.lookup name = some t) :
    (Tree.directory m entries).snapshot.look ⟨.here, [name]⟩ = .ok t.entry := by
  simp only [Snapshot.look, h.hasNul, h.snapshot, hlookup, Bool.false_eq_true, if_false]

theorem readText_file (h : NameFits name) (m : Int)
    (hlookup : entries.lookup name = some (.file content modified)) :
    (Tree.directory m entries).snapshot.readText ⟨.here, [name]⟩ =
      (Utf8.decode content).mapError .encoding := by
  simp only [Snapshot.readText, h.look m hlookup, Tree.entry]
  cases Utf8.decode content <;> rfl

theorem readText_directory {inside : List (String × Tree)} (h : NameFits name) (m : Int)
    (hlookup : entries.lookup name = some (.directory modified inside)) :
    (Tree.directory m entries).snapshot.readText ⟨.here, [name]⟩ =
      .error (.denied .isDirectory) := by
  simp only [Snapshot.readText, h.look m hlookup, Tree.entry]

theorem readText_missing (h : NameFits name) (m : Int) (hlookup : entries.lookup name = none) :
    (Tree.directory m entries).snapshot.readText ⟨.here, [name]⟩ = .error (.denied .missing) := by
  refine Snapshot.readText_denied h.hasNul ?_
  simp only [h.snapshot, hlookup]

end NameFits

/-! ## A directory with one file -/

/-- What the paths lead to in a directory with one file only. -/
def Snapshot.single (name : String) (content : List UInt8) (modified : Int) : Snapshot :=
  (Tree.directory 1 [(name, .file content modified)]).snapshot

theorem NameFits.look_single {name : String} (h : NameFits name) (content : List UInt8)
    (m : Int) : (Snapshot.single name content m).look ⟨.here, [name]⟩ = .ok (.file content m) :=
  h.look 1 List.lookup_cons_self

theorem NameFits.readText_single {name : String} (h : NameFits name) (content : List UInt8)
    (m : Int) : (Snapshot.single name content m).readText ⟨.here, [name]⟩ =
      (Utf8.decode content).mapError .encoding :=
  h.readText_file 1 List.lookup_cons_self

end ScripCheck.Files
