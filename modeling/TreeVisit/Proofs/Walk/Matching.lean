import TreeVisit.Proofs.Walk.Course

/- Walks that match. Two walks over the same trees can differ in their contexts, in what the owners
   of their visits keep and in how their hosts build a node. If every call is answered alike and
   whatever is built looks alike, then the walks end alike. What a node looks like is some view of
   it, such as its structure or the node itself. -/
namespace TreeVisit

/-- Both runs succeed with related values or both fail with the same error, in related states. -/
inductive Alike {ε s s' α α' : Type} (values : α → α' → Prop) (states : s → s' → Prop) :
    EStateM.Result ε s α → EStateM.Result ε s' α' → Prop where
  | ok {a a' st st'} (value : values a a') (state : states st st') :
      Alike values states (.ok a st) (.ok a' st')
  | error {e st st'} (state : states st st') : Alike values states (.error e st) (.error e st')

section
variable {ε s s' α α' β β' : Type} {values : α → α' → Prop} {states : s → s' → Prop} {st : s}
  {st' : s'}

theorem Alike.imp {values' : α → α' → Prop} {states' : s → s' → Prop}
    {result : EStateM.Result ε s α} {result' : EStateM.Result ε s' α'} (alike : Alike values states result result')
    (value : ∀ a a', values a a' → values' a a') (state : ∀ t t', states t t' → states' t t') :
    Alike values' states' result result' := by
  cases alike with
  | ok v t => exact .ok (value _ _ v) (state _ _ t)
  | error t => exact .error (state _ _ t)

theorem Alike.bind {after : β → β' → Prop} {step : EStateM ε s α} {step' : EStateM ε s' α'}
    {next : α → EStateM ε s β} {next' : α' → EStateM ε s' β'}
    (first : Alike values states (step st) (step' st'))
    (others : ∀ a a' t t', values a a' → states t t' →
      Alike after states (next a t) (next' a' t')) :
    Alike after states ((step >>= next) st) ((step' >>= next') st') := by
  generalize here : step st = result at first
  generalize there : step' st' = result' at first
  cases first with
  | ok value state =>
    rw [bind_ok here, bind_ok there]
    exact others _ _ _ _ value state
  | error state =>
    rw [bind_error here, bind_error there]
    exact .error state

theorem Alike.mapM {γ δ : Type} {look : β → δ} {steps : γ → EStateM ε s β}
    {steps' : γ → EStateM ε s' β} (cs : List γ) (state : states st st')
    (each : ∀ c ∈ cs, ∀ t t', states t t' →
      Alike (fun b b' => look b' = look b) states (steps c t) (steps' c t')) :
    Alike (fun bs bs' => bs'.map look = bs.map look) states (cs.mapM steps st)
      (cs.mapM steps' st') := by
  induction cs generalizing st st' with
  | nil => exact .ok rfl state
  | cons c rest ih =>
    rw [List.mapM_cons, List.mapM_cons]
    refine (each c List.mem_cons_self _ _ state).bind ?_
    intro b b' t t' first state
    refine (ih state fun d member => each d (List.mem_cons_of_mem c member)).bind ?_
    intro bs bs' t t' others state
    refine .ok ?_ state
    rw [List.map_cons, List.map_cons, first, others]

end

def Decision.map {ν β : Type} (look : ν → β) : Decision ν → Decision β
  | recurse => .recurse
  | remove => .remove
  | replace n => .replace (look n)
  | flatten ns => .flatten (ns.map look)

def Splice.map {ν β : Type} (look : ν → β) : Splice ν → Splice β
  | keep n => .keep (look n)
  | remove => .remove
  | flatten ns => .flatten (ns.map look)

@[simp] theorem Splice.map_id {ν : Type} : Splice.map (id : ν → ν) = id := by
  funext answer
  cases answer <;> simp [map]

theorem Splice.nodes_map {ν β : Type} (look : ν → β) (answer : Splice ν) :
    (answer.map look).nodes = answer.nodes.map look := by
  cases answer <;> rfl

theorem Tally.settle_map {ν β : Type} (look : ν → β) (t : Tally) (decision : Decision ν) :
    t.settle (decision.map look) = t.settle decision := by
  cases decision <;> rfl

variable {κ κ' ν ω ω' ρ ρ' τ σ σ' ε β : Type} [Storable τ]

/-- Called with owners' states that are related, the visits reply alike, leave the same board and
    leave the owners' states related. -/
def Visit.Matches (look : ν → β) (owns : σ → σ' → Prop) (visit : Visit κ ν τ σ ε) (cx : κ)
    (visit' : Visit κ' ν τ σ' ε) (cx' : κ') : Prop :=
  ∀ n board own own', owns own own' →
    Alike (fun decision decision' => decision'.map look = decision.map look)
      (fun desk desk' => desk'.board = desk.board ∧ owns desk.own desk'.own)
      (visit cx n ⟨board, own⟩) (visit' cx' n ⟨board, own'⟩)

/-- The hosts have the same trees and build nodes that look alike from answers that do. -/
structure Host.Matches (look : ν → β) (supplies : ρ → ρ' → Prop) (host : Host ν ω ρ)
    (host' : Host ν ω' ρ') : Prop where
  children : host'.children = host.children
  rebuild : ∀ n answers answers' s s', supplies s s' →
    answers'.map (Splice.map look) = answers.map (Splice.map look) →
    look ((host'.rebuild n answers').run s').1 = look ((host.rebuild n answers).run s).1 ∧
      supplies ((host.rebuild n answers).run s).2 ((host'.rebuild n answers').run s').2

structure Abreast (owns : σ → σ' → Prop) (supplies : ρ → ρ' → Prop) (st : Progress τ σ × ρ)
    (st' : Progress τ σ' × ρ') : Prop where
  board : st'.1.desk.board = st.1.desk.board
  own : owns st.1.desk.own st'.1.desk.own
  tally : st'.1.tally = st.1.tally
  supply : supplies st.2 st'.2

theorem Visit.matches_self (look : ν → β) (visit : Visit κ ν τ σ ε) (cx : κ) :
    visit.Matches look Eq cx visit cx := by
  rintro n board own _ rfl
  generalize visit cx n ⟨board, own⟩ = result
  cases result with
  | ok decision desk => exact .ok rfl ⟨rfl, rfl⟩
  | error e desk => exact .error ⟨rfl, rfl⟩

theorem Host.matches_self (host : Host ν ω ρ) : host.Matches id Eq host where
  children := rfl
  rebuild := by
    rintro n answers answers' s _ rfl same
    rw [Splice.map_id, List.map_id, List.map_id] at same
    rw [same]
    exact ⟨rfl, rfl⟩

variable {look : ν → β} {owns : σ → σ' → Prop} {supplies : ρ → ρ' → Prop} {host : Host ν ω ρ}
  {host' : Host ν ω' ρ'} {visit : Visit κ ν τ σ ε} {visit' : Visit κ' ν τ σ' ε} {cx : κ} {cx' : κ'}

theorem Abreast.progress_eq {st : Progress τ σ × ρ} {st' : Progress τ σ × ρ'}
    (abreast : Abreast Eq supplies st st') : st'.1 = st.1 := by
  obtain ⟨⟨⟨board, own⟩, tally⟩, supply⟩ := st
  obtain ⟨⟨⟨board', own'⟩, tally'⟩, supply'⟩ := st'
  obtain ⟨boards, owners, tallies, _⟩ := abreast
  simp only at boards owners tallies ⊢
  rw [boards, owners, tallies]

theorem Visit.Matches.visitNode (visits : visit.Matches look owns cx visit' cx') (n : ν)
    {st : Progress τ σ × ρ} {st' : Progress τ σ' × ρ'} (abreast : Abreast owns supplies st st') :
    Alike (fun decision decision' => decision'.map look = decision.map look) (Abreast owns supplies)
      (visitNode visit cx n st) (visitNode visit' cx' n st') := by
  obtain ⟨⟨⟨_, own⟩, _⟩, supply⟩ := st
  obtain ⟨⟨⟨board, own'⟩, tally⟩, supply'⟩ := st'
  obtain ⟨rfl, owned, rfl, supplied⟩ := abreast
  have called := visits n board own own' owned
  simp only [TreeVisit.visitNode]
  generalize visit cx n ⟨board, own⟩ = result at called ⊢
  generalize visit' cx' n ⟨board, own'⟩ = result' at called ⊢
  cases called with
  | @ok decision decision' _ _ same desks =>
    have counted : tally.visit.settle decision' = tally.visit.settle decision := by
      rw [← Tally.settle_map look, same, Tally.settle_map]
    exact .ok same ⟨desks.1, desks.2, counted, supplied⟩
  | error desks => exact .error ⟨desks.1, desks.2, rfl, supplied⟩

theorem Host.Matches.supply (hosts : host.Matches look supplies host') (n : ν)
    {answers answers' : List (Splice ν)}
    (same : answers'.map (Splice.map look) = answers.map (Splice.map look))
    {st : Progress τ σ × ρ} {st' : Progress τ σ' × ρ'} (abreast : Abreast owns supplies st st') :
    Alike (fun node node' => look node' = look node) (Abreast owns supplies)
      ((HostM.supply (host.rebuild n answers) : HostM ρ ε (Progress τ σ) ν) st)
      ((HostM.supply (host'.rebuild n answers') : HostM ρ' ε (Progress τ σ') ν) st') := by
  obtain ⟨built, supplied⟩ := hosts.rebuild n answers answers' st.2 st'.2 abreast.supply same
  exact .ok built ⟨abreast.board, abreast.own, abreast.tally, supplied⟩

theorem walk_alike (hosts : host.Matches look supplies host')
    (visits : visit.Matches look owns cx visit' cx') (n : ν)
    {st : Progress τ σ × ρ} {st' : Progress τ σ' × ρ'} (abreast : Abreast owns supplies st st') :
    Alike (fun answer answer' => answer'.map look = answer.map look) (Abreast owns supplies)
      (walk host visit cx n st) (walk host' visit' cx' n st') := by
  -- on the size of the node, as the walk itself recurses; what stays true of the two moments is
  -- `Abreast`, so the children are asked wherever the node before them left off
  induction size : host.size n using Nat.strongRecOn generalizing n st st' with
  | ind bound smaller =>
    rw [walk_eq, walk_eq]
    refine (visits.visitNode n abreast).bind ?_
    intro decision decision' t t' same abreast
    cases decision with
    | recurse =>
      cases decision' <;> cases same
      rw [hosts.children]
      have children : Alike (fun answers answers' =>
          answers'.map (Splice.map look) = answers.map (Splice.map look)) (Abreast owns supplies)
          ((host.children n).mapM (walk host visit cx) t)
          ((host.children n).mapM (walk host' visit' cx') t') := by
        refine Alike.mapM (host.children n) abreast ?_
        intro c member t t' abreast
        exact smaller (host.size c) (size ▸ host.size_lt member) c abreast rfl
      refine children.bind ?_
      intro answers answers' t t' same abreast
      refine (hosts.supply n same abreast).bind ?_
      intro node node' t t' same abreast
      exact .ok (congrArg Splice.keep same) abreast
    | remove =>
      cases decision' <;> cases same
      exact .ok rfl abreast
    | replace m =>
      cases decision' with
      | replace m' => exact .ok (congrArg Splice.keep (Decision.replace.inj same)) abreast
      | _ => cases same
    | flatten ms =>
      cases decision' with
      | flatten ms' => exact .ok (congrArg Splice.flatten (Decision.flatten.inj same)) abreast
      | _ => cases same

theorem traverse_alike (hosts : host.Matches look supplies host')
    (visits : visit.Matches look owns cx visit' cx') (root : ν) (st : σ × ρ) (st' : σ' × ρ')
    (owned : owns st.1 st'.1) (supplied : supplies st.2 st'.2) :
    let here := (traverse host visit cx root).run st
    let there := (traverse host' visit' cx' root).run st'
    there.1.result.map (Splice.map look) = here.1.result.map (Splice.map look) ∧
      there.1.board = here.1.board ∧ there.1.tally = here.1.tally ∧
      owns here.2.1 there.2.1 ∧ supplies here.2.2 there.2.2 := by
  have abreast : Abreast owns supplies (start st.1 st.2 : Progress τ σ × ρ) (start st'.1 st'.2) :=
    ⟨rfl, owned, rfl, supplied⟩
  have walks := walk_alike hosts visits root abreast
  simp only [start] at walks
  simp only [StateT.run, traverse]
  generalize walk host visit cx root _ = result at walks ⊢
  generalize walk host' visit' cx' root _ = result' at walks ⊢
  cases walks with
  | ok same abreast =>
    exact ⟨congrArg Except.ok same, abreast.board, abreast.tally, abreast.own, abreast.supply⟩
  | error abreast => exact ⟨rfl, abreast.board, abreast.tally, abreast.own, abreast.supply⟩

end TreeVisit
