import TreeVisit.Proofs.Walk.Course

/- The calls of a walk are its record. Each is made in the context of the walk and on the board that
   the call before it left, the counts are those of the replies, and a failure is the last reply. -/
namespace TreeVisit

variable {κ ν ω ρ τ σ ε : Type} [Storable τ]

/-- The first call finds this board, each later one the board that the call before it left, and the
    last one leaves that board. -/
def Threaded : Board τ → List (Call κ ν τ ε) → Board τ → Prop
  | first, [], last => last = first
  | first, call :: later, last => call.before = first ∧ Threaded call.after later last

theorem Threaded.append {first between last : Board τ} {calls later : List (Call κ ν τ ε)}
    (here : Threaded first calls between) (behind : Threaded between later last) :
    Threaded first (calls ++ later) last := by
  induction calls generalizing first with
  | nil =>
    cases here
    exact behind
  | cons call rest ih => exact ⟨here.1, ih here.2⟩

def Tally.add (t : Tally) : Except ε (Decision ν) → Tally
  | .ok decision => t.visit.settle decision
  | .error _ => t.visit

theorem Tally.visited_add (t : Tally) (reply : Except ε (Decision ν)) :
    (t.add reply).visited = t.visited + 1 := by
  cases reply with
  | error e => rfl
  | ok decision => cases decision <;> rfl

theorem Tally.visited_foldl (t : Tally) (calls : List (Call κ ν τ ε)) :
    (calls.foldl (fun t call => t.add call.reply) t).visited = t.visited + calls.length := by
  induction calls generalizing t with
  | nil => rfl
  | cons call later ih =>
    rw [List.foldl_cons, ih, visited_add, List.length_cons]
    omega

variable {host : Host ν ω ρ} {visit : Visit κ ν τ σ ε} {cx : κ} {ns : List ν}
  {st final : Progress τ σ × ρ} {course : Course κ ν τ ε}

namespace Walked

theorem contexts (walked : Walked host visit cx ns st course final) :
    ∀ call ∈ course.calls, call.context = cx := by
  induction walked with
  | done => simp [Course.calls]
  | failed => simp [Course.calls, callAt]
  | settled _ _ _ others =>
    simp only [Course.calls, List.forall_mem_cons]
    exact ⟨rfl, others⟩
  | entered _ _ _ _ _ children others =>
    simp only [Course.calls, List.forall_mem_cons, List.forall_mem_append]
    exact ⟨rfl, children, others⟩
  | broken _ _ _ children =>
    simp only [Course.calls, List.forall_mem_cons]
    exact ⟨rfl, children⟩

theorem threaded (walked : Walked host visit cx ns st course final) :
    Threaded st.1.desk.board course.calls final.1.desk.board := by
  induction walked with
  | done => rfl
  | failed => exact ⟨rfl, rfl⟩
  | settled _ _ _ others => exact ⟨rfl, others⟩
  | entered _ _ _ _ _ children others => exact ⟨rfl, children.append others⟩
  | broken _ _ _ children => exact ⟨rfl, children⟩

theorem tally (walked : Walked host visit cx ns st course final) :
    final.1.tally = course.calls.foldl (fun t call => t.add call.reply) st.1.tally := by
  induction walked with
  | done => rfl
  | failed asked =>
    obtain ⟨_, _, rfl⟩ := visitNode_error asked
    rfl
  | settled asked _ _ others =>
    obtain ⟨_, _, rfl⟩ := visitNode_ok asked
    exact others
  | entered asked _ _ _ _ children others =>
    obtain ⟨_, _, rfl⟩ := visitNode_ok asked
    rw [others, children, Course.calls, List.foldl_cons, List.foldl_append]
    rfl
  | broken asked _ _ children =>
    obtain ⟨_, _, rfl⟩ := visitNode_ok asked
    exact children

theorem last_reply (walked : Walked host visit cx ns st course final) {e : ε}
    (fails : course.outcome = .error e) :
    ∃ last, [last] <:+ course.calls ∧ last.reply = .error e := by
  induction walked with
  | done => cases fails
  | failed =>
    cases fails
    exact ⟨_, List.suffix_refl _, rfl⟩
  | settled _ _ _ others =>
    obtain ⟨last, ends, reply⟩ := others (fails_later fails)
    exact ⟨last, ends.trans (List.suffix_cons ..), reply⟩
  | @entered _ _ _ _ _ _ below _ _ _ later _ _ _ _ _ _ others =>
    obtain ⟨last, ends, reply⟩ := others (fails_later fails)
    have behind := ends.trans (List.suffix_append below.calls later.calls)
    exact ⟨last, behind.trans (List.suffix_cons ..), reply⟩
  | broken _ _ _ children =>
    obtain ⟨last, ends, reply⟩ := children fails
    exact ⟨last, ends.trans (List.suffix_cons ..), reply⟩

end Walked

/-- What the calls of a walk over one tree tell of it. -/
structure Recorded (cx : κ) (calls : List (Call κ ν τ ε)) (t : Traversal ν τ ε) : Prop where
  nonempty : calls ≠ []
  contexts : ∀ call ∈ calls, call.context = cx
  threaded : Threaded ∅ calls t.board
  tally : t.tally = calls.foldl (fun t call => t.add call.reply) ∅
  last_reply : ∀ e, t.result = .error e → calls.getLast?.map (·.reply) = some (.error e)

theorem traverse_is_recorded (host : Host ν ω ρ) (visit : Visit κ ν τ σ ε) (cx : κ) (root : ν)
    (own : σ) (supply : ρ) :
    Recorded cx (calls host visit cx root own supply)
      ((traverse host visit cx root).run (own, supply)).1 := by
  obtain ⟨course, final, answer, whole⟩ := exists_courseOf host visit cx root own supply
  rw [whole.calls_eq, StateT.run, whole.traversal]
  refine ⟨?_, whole.walked.contexts, whole.walked.threaded, whole.walked.tally, ?_⟩
  · have walked := whole.walked
    cases walked <;> simp [Course.calls]
  · rintro e rfl
    obtain ⟨last, ⟨earlier, split⟩, reply⟩ := whole.walked.last_reply whole.outcome
    rw [← split, List.getLast?_concat, Option.map_some, reply]

theorem Recorded.visited {calls : List (Call κ ν τ ε)} {t : Traversal ν τ ε}
    (recorded : Recorded cx calls t) : t.tally.visited = calls.length := by
  rw [recorded.tally, Tally.visited_foldl]
  exact Nat.zero_add _

theorem Traversal.event_completed {t : Traversal ν τ ε} {splice : Splice ν}
    (completes : t.result = .ok splice) (level : Level) :
    t.event level = .completed level t.tally t.board.keys.length := by
  rw [event, completes, ← Board.size_eq_length_keys]

theorem Traversal.event_aborted {t : Traversal ν τ ε} {e : ε} (fails : t.result = .error e)
    (level : Level) : t.event level = .aborted level t.tally.visited := by
  rw [event, fails]

end TreeVisit
