import TreeVisit.Proofs.Walk.Matching
import TreeVisit.Proofs.Walk.Sharing

/- Sharing cannot be seen in the structure of trees. Whether a host keeps a node of which no child
   changed or always builds a new one, a walk makes the same calls and gives a tree of one structure;
   the two hosts differ in marks alone. -/
namespace TreeVisit

theorem Node.shape_eq {μ : Type} (n : Node μ) :
    n.shape = .mk () n.kind n.text? (n.children.map Node.shape) := by
  cases n with
  | mk m k t cs => rw [shape, mapMarks, mapMarksAll_eq_map]; rfl

/-- The node that a host builds has the kind and text of the old one and, for its children, what
    the answers contribute. -/
structure Host.Splices {ω ρ : Type} (host : Host Tree ω ρ) : Prop where
  children : host.children = Node.children
  rebuild : ∀ n answers s, ∀ node, ((host.rebuild n answers).run s).1 = node →
    node.kind = n.kind ∧ node.text? = n.text? ∧ node.children = answers.flatMap Splice.nodes

theorem Tree.host_splices (options : Options) : (Tree.host options).Splices where
  children := rfl
  rebuild _ _ _ _ built := Tree.rebuild_spliced (Prod.ext built rfl)

theorem Tree.plainHost_splices (options : Options) : (Tree.plainHost options).Splices where
  children := rfl
  rebuild := by
    rintro n answers s node rfl
    exact ⟨rfl, rfl, rfl⟩

theorem Splice.shapes_nodes (answers : List (Splice Tree)) :
    (answers.flatMap Splice.nodes).map Node.shape =
      (answers.map (Splice.map Node.shape)).flatMap Splice.nodes := by
  rw [List.map_flatMap, List.flatMap_map]
  simp only [Splice.nodes_map]

theorem Host.Splices.matches {ω ω' ρ ρ' : Type} {host : Host Tree ω ρ} {host' : Host Tree ω' ρ'}
    (here : host.Splices) (there : host'.Splices) :
    host.Matches Node.shape (fun _ _ => True) host' where
  children := there.children.trans here.children.symm
  rebuild := by
    intro n answers answers' s s' _ same
    obtain ⟨kind, text, children⟩ := here.rebuild n answers s _ rfl
    obtain ⟨kind', text', children'⟩ := there.rebuild n answers' s' _ rfl
    refine ⟨?_, trivial⟩
    rw [Node.shape_eq, kind', text', children', Splice.shapes_nodes, same, ← Splice.shapes_nodes,
      ← children, ← text, ← kind, ← Node.shape_eq]

variable {κ τ σ ε : Type} [Storable τ]

/-- Over the two hosts a visit is called on the same nodes with the same replies, and leaves the same
    board, the same counts and the same state of its owner; the results are the same error or have
    one structure. So it is for walks that begin at any other moment than the start as well. -/
theorem plain_host_walks_alike {χ π ο : Type} [Checked π χ] {level : Level}
    (pass : BoundPass level χ π ο (Visit (level.Context Tree Options χ π) Tree τ σ ε))
    (options : Options) (root : Tree) (own : σ) (supply supply' : Supply) :
    let shared := (pass.traverse (Tree.host options) root).run (own, supply)
    let plain := (pass.traverse (Tree.plainHost options) root).run (own, supply')
    (plain.1.result.map (Splice.map Node.shape) = shared.1.result.map (Splice.map Node.shape) ∧
      pass.calls (Tree.plainHost options) root own supply' =
        pass.calls (Tree.host options) root own supply ∧
      plain.1.board = shared.1.board ∧ plain.1.tally = shared.1.tally ∧ plain.2.1 = shared.2.1) ∧
    ∀ cx (begun : Progress τ (σ × List (Call (level.Context Tree Options χ π) Tree τ ε))),
      Alike (fun answer answer' => answer'.map Node.shape = answer.map Node.shape)
        (fun st st' => st'.1 = st.1)
        (walk (Tree.host options) pass.visit.recorded cx root (begun, supply))
        (walk (Tree.plainHost options) pass.visit.recorded cx root (begun, supply')) := by
  intro shared plain
  have hosts := (Tree.host_splices options).matches (Tree.plainHost_splices options)
  constructor
  · let cx := pass.args.enrich ⟨root, options⟩
    have visits := pass.visit.matches_self Node.shape cx
    have recorded := pass.visit.recorded.matches_self Node.shape cx
    obtain ⟨results, boards, tallies, owners, _⟩ :=
      traverse_alike hosts visits root (own, supply) (own, supply') rfl trivial
    obtain ⟨_, _, _, logs, _⟩ :=
      traverse_alike hosts recorded root ((own, []), supply) ((own, []), supply') rfl trivial
    exact ⟨results, (congrArg Prod.snd logs).symm, boards, tallies, owners.symm⟩
  · intro cx begun
    have recorded := pass.visit.recorded.matches_self Node.shape cx
    have abreast : Abreast Eq (fun _ _ => True) (begun, supply) (begun, supply') :=
      ⟨rfl, rfl, rfl, trivial⟩
    exact (walk_alike hosts recorded root abreast).imp (fun _ _ same => same)
      fun _ _ abreast => abreast.progress_eq

end TreeVisit
