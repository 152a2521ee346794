import TreeVisit.Proofs.Walk.Sharing

/- How a host goes over the children of one node, whatever it asks about them. The children are asked
   about from left to right, each in the state that the last call left, up to the first failure. The
   node stays the very node it was exactly if each child was kept as it was; to keep a child by an equal
   one with another mark, or to flatten it to itself, makes a new node. -/
namespace TreeVisit

variable {ν ω ρ σ ε : Type}

structure Asked (ν ε : Type) where
  child : ν
  reply : Except ε (Splice ν)

def Asked.Kept (asked : Asked ν ε) : Prop := asked.reply = .ok (.keep asked.child)

/-- The questions about children in order, from one state to the last. -/
inductive Asks (ask : ν → HostM ρ ε σ (Splice ν)) :
    List ν → σ × ρ → List (Asked ν ε) → σ × ρ → Prop
  | done {st} : Asks ask [] st [] st
  | failed {c rest st st' e} (fails : ask c st = .error e st') :
    Asks ask (c :: rest) st [⟨c, .error e⟩] st'
  | answered {c rest st st' final answer log} (answers : ask c st = .ok answer st')
      (others : Asks ask rest st' log final) :
    Asks ask (c :: rest) st (⟨c, .ok answer⟩ :: log) final

def noting (ask : ν → HostM ρ ε σ (Splice ν)) : ν → HostM ρ ε (σ × List (Asked ν ε)) (Splice ν) :=
  fun c st =>
    match ask c (st.1.1, st.2) with
    | .ok answer next => .ok answer ((next.1, st.1.2 ++ [⟨c, .ok answer⟩]), next.2)
    | .error e next => .error e ((next.1, st.1.2 ++ [⟨c, .error e⟩]), next.2)

def gathered : List (Asked ν ε) → Except ε (List (Splice ν))
  | [] => .ok []
  | ⟨_, .error e⟩ :: _ => .error e
  | ⟨_, .ok answer⟩ :: rest => (gathered rest).map (answer :: ·)

/-- Either all children were answered, or one was the first to fail and those behind it were not asked
    about. -/
inductive Heard (cs : List ν) : List (Asked ν ε) → Except ε (List (Splice ν)) → Prop
  | all {log} (answers : List (Splice ν)) (children : log.map (·.child) = cs)
      (replies : log.map (·.reply) = answers.map .ok) : Heard cs log (.ok answers)
  | failed {c e} (earlier : List (Asked ν ε)) (later : List ν) (answers : List (Splice ν))
      (children : cs = earlier.map (·.child) ++ c :: later)
      (replies : earlier.map (·.reply) = answers.map .ok) :
    Heard cs (earlier ++ [⟨c, .error e⟩]) (.error e)

theorem Heard.cons {cs : List ν} {log : List (Asked ν ε)} {outcome : Except ε (List (Splice ν))}
    (heard : Heard cs log outcome) (c : ν) (answer : Splice ν) :
    Heard (c :: cs) (⟨c, .ok answer⟩ :: log) (outcome.map (answer :: ·)) := by
  cases heard with
  | all answers children replies =>
    refine .all (answer :: answers) ?_ ?_
    · rw [List.map_cons, children]
    · rw [List.map_cons, replies, List.map_cons]
  | failed earlier later answers children replies =>
    refine .failed (⟨c, .ok answer⟩ :: earlier) later (answer :: answers) ?_ ?_
    · rw [children, List.map_cons, List.cons_append]
    · rw [List.map_cons, replies, List.map_cons]

namespace Asks
variable {ask : ν → HostM ρ ε σ (Splice ν)} {cs : List ν} {st final : σ × ρ}
  {log : List (Asked ν ε)}

theorem exists_log (ask : ν → HostM ρ ε σ (Splice ν)) (cs : List ν) (st : σ × ρ) :
    ∃ log final, Asks ask cs st log final := by
  induction cs generalizing st with
  | nil => exact ⟨[], st, .done⟩
  | cons c rest ih =>
    cases asked : ask c st with
    | error e st' => exact ⟨_, st', .failed asked⟩
    | ok answer st' =>
      obtain ⟨log, final, others⟩ := ih st'
      exact ⟨_, final, .answered asked others⟩

theorem heard (asks : Asks ask cs st log final) : Heard cs log (gathered log) := by
  induction asks with
  | done => exact .all [] rfl rfl
  | @failed c rest => exact .failed [] rest [] rfl rfl
  | answered _ _ ih => exact ih.cons _ _

theorem run (asks : Asks ask cs st log final) :
    cs.mapM ask st = resultAt (gathered log) final := by
  induction asks with
  | done => rfl
  | failed fails =>
    rw [List.mapM_cons]
    exact bind_error fails
  | @answered c rest st st' final answer log answers _ ih =>
    rw [List.mapM_cons, bind_ok answers, gathered]
    cases outcome : gathered log with
    | ok later =>
      rw [outcome] at ih
      exact bind_ok ih
    | error e =>
      rw [outcome] at ih
      exact bind_error ih

theorem noted (asks : Asks ask cs st log final) (before : List (Asked ν ε)) :
    Asks (noting ask) cs ((st.1, before), st.2) log ((final.1, before ++ log), final.2) := by
  induction asks generalizing before with
  | done =>
    rw [List.append_nil]
    exact .done
  | failed fails => exact .failed (by simp only [noting, fails])
  | answered answers _ ih =>
    rw [List.append_cons]
    exact .answered (by simp only [noting, answers]) (ih _)

end Asks

section
variable {host : Host ν ω ρ} {ask : ν → HostM ρ ε σ (Splice ν)} {n : ν} {st final : σ × ρ}

theorem Host.visitEachChild_eq (host : Host ν ω ρ) (n : ν) (ask : ν → HostM ρ ε σ (Splice ν)) :
    (host.visitEachChild n fun c _ => ask c) = (do
      let answers ← (host.children n).mapM ask
      HostM.supply (host.rebuild n answers)) := by
  simp [Host.visitEachChild]

theorem Host.visitEachChild_ok {answers : List (Splice ν)} {node : ν} {supply : ρ}
    (run : (host.children n).mapM ask st = .ok answers final)
    (rebuilt : (host.rebuild n answers).run final.2 = (node, supply)) :
    (host.visitEachChild n fun c _ => ask c) st = .ok node (final.1, supply) := by
  rw [Host.visitEachChild_eq, bind_ok run, HostM.supply, rebuilt]

theorem Host.visitEachChild_error {e : ε} (run : (host.children n).mapM ask st = .error e final) :
    (host.visitEachChild n fun c _ => ask c) st = .error e final := by
  rw [Host.visitEachChild_eq]
  exact bind_error run

end

/-- What is asked may build nodes, but no mark is drawn again. -/
def Draws (ask : Tree → HostM Supply ε σ (Splice Tree)) : Prop :=
  ∀ c st, match ask c st with
    | .ok _ st' | .error _ st' => st.2.next ≤ st'.2.next

theorem Asks.next_le {ask : Tree → HostM Supply ε σ (Splice Tree)} {cs : List Tree}
    {st final : σ × Supply} {log : List (Asked Tree ε)} (asks : Asks ask cs st log final)
    (draws : Draws ask) : st.2.next ≤ final.2.next := by
  induction asks with
  | done => exact Nat.le_refl _
  | @failed c rest st st' e fails =>
    have drawn := draws c st
    rwa [fails] at drawn
  | @answered c rest st st' final answer log answers _ ih =>
    have drawn := draws c st
    rw [answers] at drawn
    exact Nat.le_trans drawn ih

theorem kept_iff {cs : List ν} {log : List (Asked ν ε)} {answers : List (Splice ν)}
    (children : log.map (·.child) = cs) (replies : log.map (·.reply) = answers.map .ok) :
    answers = cs.map .keep ↔ ∀ asked ∈ log, asked.Kept := by
  have injective : ∀ answer answer' : Splice ν,
      (.ok answer : Except ε (Splice ν)) = .ok answer' → answer = answer' := fun _ _ => Except.ok.inj
  rw [← List.map_inj_right injective, ← replies, ← children, List.map_map, List.map_map,
    List.map_inj_left]
  rfl

/-- The node has a mark that was drawn for it alone, the kind and text of the old one, and for its
    children what the answers contribute. -/
structure BuiltFrom (n : Tree) (answers : List (Splice Tree)) (s : Supply) (node : Tree)
    (s' : Supply) : Prop where
  fresh : ∀ m : Tree, s.Past m → node.mark ≠ m.mark
  past : s'.Past node
  kind : node.kind = n.kind
  text : node.text? = n.text?
  children : node.children = answers.flatMap Splice.nodes

theorem Tree.rebuild_same_or_built {n node : Tree} {answers : List (Splice Tree)} {s s' : Supply}
    (rebuilt : (Tree.rebuild n answers).run s = (node, s')) :
    node = n ∨ BuiltFrom n answers s node s' := by
  rcases Tree.rebuild_cases rebuilt with ⟨_, same, _⟩ | ⟨_, built, grown⟩
  · exact .inl same
  · obtain ⟨kind, text, children⟩ := Tree.rebuild_spliced rebuilt
    have mark : node.mark = .rebuilt s.next := by
      rw [built]
      rfl
    refine .inr ⟨?_, ?_, kind, text, children⟩
    · intro m past drawn
      have old := past s.next (drawn.symm.trans mark)
      omega
    · intro k drawn
      cases mark.symm.trans drawn
      omega

/-- The children are asked about in order, each once and in the state that the last call left, up to
    and including the first that fails; the failure is given back as it is. If none fails, the very
    node is given back exactly if each child was kept as it was, and else a new node of its kind and
    text around what the answers contribute. -/
theorem children_asked_up_to_failure (options : Options) (n : Tree)
    (ask : Tree → HostM Supply ε σ (Splice Tree)) (own : σ) (supply : Supply)
    (past : supply.Past n) (draws : Draws ask) :
    let host := Tree.host options
    let run := (host.visitEachChild n fun c _ => ask c) (own, supply)
    let noted := (host.visitEachChild n fun c _ => noting ask c) ((own, []), supply)
    ∃ log final, Asks ask n.children (own, supply) log final ∧
      ((∃ e, Heard n.children log (.error e) ∧ run = .error e final ∧
        noted = .error e ((final.1, log), final.2)) ∨
      ∃ answers node supply', Heard n.children log (.ok answers) ∧ run = .ok node (final.1, supply') ∧
        noted = .ok node ((final.1, log), supply') ∧
        (node = n ↔ ∀ asked ∈ log, asked.Kept) ∧
        (node = n ∨ BuiltFrom n answers final.2 node supply')) := by
  intro host run noted
  obtain ⟨log, final, asks⟩ := Asks.exists_log ask n.children (own, supply)
  refine ⟨log, final, asks, ?_⟩
  have heard := asks.heard
  have went := asks.run
  have went' := (asks.noted []).run
  rw [List.nil_append] at went'
  cases outcome : gathered log with
  | error e =>
    rw [outcome] at heard went went'
    exact .inl ⟨e, heard, Host.visitEachChild_error went, Host.visitEachChild_error went'⟩
  | ok answers =>
    rw [outcome] at heard went went'
    obtain ⟨node, supply', rebuilt⟩ : ∃ node supply',
        (Tree.rebuild n answers).run final.2 = (node, supply') := ⟨_, _, rfl⟩
    have same : node = n ↔ answers = n.children.map .keep :=
      Tree.rebuild_same_iff rebuilt (past.later (asks.next_le draws))
    have ends : run = .ok node (final.1, supply') := Host.visitEachChild_ok went rebuilt
    have rebuilt' : (host.rebuild n answers).run ((final.1, log), final.2).2 = (node, supply') :=
      rebuilt
    have ends' : noted = .ok node ((final.1, log), supply') := Host.visitEachChild_ok went' rebuilt'
    refine .inr ⟨answers, node, supply', heard, ends, ends', ?_, Tree.rebuild_same_or_built rebuilt⟩
    cases heard with
    | all _ children replies => exact same.trans (kept_iff children replies)

theorem child_flattened_to_itself :
    let root : Tree :=
      .mk (.given 0) "f" none [.mk (.given 1) "a" none [], .mk (.given 2) "b" none []]
    let ask : Tree → HostM Supply Fault Nat (Splice Tree) := fun c st =>
      .ok (if c.isKind "b" then .flatten [c] else .keep c) (st.1 + 1, st.2)
    Supply.Past ⟨3⟩ root ∧ Draws ask ∧
      ((Tree.host default).visitEachChild root fun c _ => ask c) (0, ⟨3⟩) =
        .ok (.mk (.rebuilt 3) "f" none root.children) (2, ⟨4⟩) ∧
      ∃ log final, Asks ask root.children (0, ⟨3⟩) log final ∧ ¬ ∀ asked ∈ log, asked.Kept := by
  intro root ask
  have past : Supply.Past ⟨3⟩ root := by decide
  have draws : Draws ask := fun c st => Nat.le_refl st.2.next
  have run : ((Tree.host default).visitEachChild root fun c _ => ask c) (0, ⟨3⟩) =
      .ok (.mk (.rebuilt 3) "f" none root.children) (2, ⟨4⟩) := by
    with_unfolding_all rfl
  refine ⟨past, draws, run, ?_⟩
  obtain ⟨log, final, asks, ⟨e, _, fails, _⟩ | ⟨answers, node, supply', _, ends, _, same, _⟩⟩ :=
    children_asked_up_to_failure default root ask 0 ⟨3⟩ past draws
  · nomatch run.symm.trans fails
  · obtain ⟨given, _⟩ := EStateM.Result.ok.inj (run.symm.trans ends)
    refine ⟨log, final, asks, ?_⟩
    rw [← same, ← given]
    decide

end TreeVisit
