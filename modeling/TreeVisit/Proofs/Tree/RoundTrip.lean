import TreeVisit.Proofs.Tree.Reading
import TreeVisit.Tree.Mark

/- Printing and reading. A printed tree reads back as itself exactly if every atom in it is one that
   can be written, and the reader gives only such trees. -/
namespace TreeVisit.Tree
open Node

universe u v

section
variable {μ : Type u} {ν : Type v}

mutual

theorem preorder_mapMarks (f : μ → ν) (n : Node μ) :
    (n.mapMarks f).preorder = n.preorder.map (Node.mapMarks f) := by
  cases n with
  | mk m k t cs => rw [mapMarks, preorder, preorders_mapMarks f cs, preorder, List.map_cons, mapMarks]

theorem preorders_mapMarks (f : μ → ν) (cs : List (Node μ)) :
    preorders (mapMarksAll f cs) = (preorders cs).map (Node.mapMarks f) := by
  cases cs with
  | nil => rfl
  | cons c rest =>
    rw [mapMarksAll, preorders, preorders, preorder_mapMarks f c, preorders_mapMarks f rest,
      List.map_append]

end

@[simp] theorem kind_mapMarks (f : μ → ν) (n : Node μ) : (n.mapMarks f).kind = n.kind := by
  cases n
  rfl

@[simp] theorem text?_mapMarks (f : μ → ν) (n : Node μ) : (n.mapMarks f).text? = n.text? := by
  cases n
  rfl

theorem wellFormed_shape (n : Node μ) : WellFormed n.shape ↔ WellFormed n := by
  simp only [WellFormed, Node.shape, preorder_mapMarks, List.mem_map, forall_exists_index, and_imp,
    forall_apply_eq_imp_iff₂, kind_mapMarks, text?_mapMarks]

mutual

theorem shape_shape (t : Shape) : t.shape = t := by
  cases t with
  | mk m k text? cs =>
    have same := mapMarksAll_shapes cs
    rw [Node.shape, mapMarks, same]

theorem mapMarksAll_shapes (ts : List Shape) : mapMarksAll (fun _ => ()) ts = ts := by
  cases ts with
  | nil => rfl
  | cons t rest =>
    have first := shape_shape t
    rw [Node.shape] at first
    rw [mapMarksAll, first, mapMarksAll_shapes rest]

end

mutual

theorem written_chars (n : Node μ) (valid : WellFormed n) : Written n.shape n.chars := by
  cases n with
  | mk m k t cs =>
    have own : IsAtom k t := valid (.mk m k t cs) (by rw [preorder]; exact List.mem_cons_self)
    have inner : ∀ n ∈ preorders cs, IsAtom n.kind n.text? := fun n member =>
      valid n (by rw [preorder]; exact List.mem_cons_of_mem _ member)
    rw [Node.shape, mapMarks, chars]
    cases cs with
    | nil => exact .atom own
    | cons c rest =>
      have all := writtenAll_tailChars (c :: rest) inner (atomChars k t)
      have listed : Written (.mk () k t (mapMarksAll (fun _ => ()) (c :: rest)))
          ('(' :: ([] ++ atomChars k t ++ tailChars (c :: rest) ++ [] ++ [')'])) :=
        .list own nofun all nofun
      simpa using listed

theorem writtenAll_tailChars (cs : List (Node μ)) (valid : ∀ n ∈ preorders cs, IsAtom n.kind n.text?)
    (piece : List Char) : WrittenAll piece (mapMarksAll (fun _ => ()) cs) (tailChars cs) := by
  cases cs with
  | nil => exact .nil
  | cons c rest =>
    rw [preorders] at valid
    have first := written_chars c fun n member => valid n (List.mem_append_left _ member)
    have others := writtenAll_tailChars rest
      (fun n member => valid n (List.mem_append_right _ member)) c.chars
    have parted : Parted piece [' '] c.chars := by
      constructor
      · intro d member
        rw [List.mem_singleton.mp member]
        rfl
      · intro _ _ none
        cases none
    exact .cons parted first others

end

mutual

theorem wellFormed_of_written {t : Shape} {piece : List Char} (written : Written t piece) :
    WellFormed t := by
  intro n member
  cases written with
  | atom valid =>
    rw [preorder, preorders, List.mem_singleton] at member
    exact member ▸ valid
  | list valid opening all closing =>
    rw [preorder] at member
    rcases List.mem_cons.mp member with rfl | inner
    · exact valid
    · exact isAtom_of_writtenAll all n inner

theorem isAtom_of_writtenAll {piece body : List Char} {children : List Shape}
    (written : WrittenAll piece children body) (n : Shape) (member : n ∈ preorders children) :
    IsAtom n.kind n.text? := by
  cases written with
  | nil => nomatch member
  | cons parted written others =>
    rw [preorders] at member
    rcases List.mem_append.mp member with first | later
    · exact wellFormed_of_written written n first
    · exact isAtom_of_writtenAll others n later

end

theorem wellFormed_of_read {input : String} {t : Shape} (read : Tree.read input = .ok t) :
    WellFormed t := by
  obtain ⟨_, _, _, _, written, _⟩ := (read_eq_ok_iff_renders input t).mp read
  exact wellFormed_of_written written

theorem read_print_iff (n : Node μ) : Tree.read n.print = .ok n.shape ↔ WellFormed n := by
  constructor
  · intro read
    exact (wellFormed_shape n).mp (wellFormed_of_read read)
  · intro valid
    rw [read_eq_ok_iff_renders, Node.print, String.toList_ofList]
    exact ⟨[], n.chars, [], nofun, written_chars n valid, nofun, by simp⟩

end

/-- A tree of any kinds and texts is printed as a text that reads back as it exactly if the tree is
    well formed. All that is read is well formed, so that printing it and reading it again gives the
    same tree and the same text. -/
theorem print_reads_back :
    (∀ n : Tree, Tree.read n.print = .ok n.shape ↔ WellFormed n) ∧
      ∀ (input : String) (t : Shape), Tree.read input = .ok t →
        WellFormed t ∧ Tree.read t.print = .ok t ∧
          (Tree.read t.print).map Node.print = .ok t.print := by
  refine ⟨read_print_iff, fun input t read => ?_⟩
  have valid := wellFormed_of_read read
  have again := (read_print_iff t).mpr valid
  rw [shape_shape] at again
  refine ⟨valid, again, ?_⟩
  rw [again]
  rfl

end TreeVisit.Tree
