import TreeVisit.Proofs.Registration
import TreeVisit.Walk.Pass

/- Tags of levels, and the passes that they let through. Tags are read in three places: by a search
   over the tags, as the names of variants, and under the key of a registration. All three know the
   same five tags, so that a pass is built from any of them exactly where its own level is asked for. -/
namespace TreeVisit

theorem lookup_tagged {α : Type} {tag : α → String} (injective : ∀ a b, tag a = tag b → a = b)
    (values : List α) (key : String) (a : α) :
    (values.map fun value => (tag value, value)).lookup key = some a ↔ a ∈ values ∧ key = tag a := by
  induction values with
  | nil => simp
  | cons value rest ih =>
    rw [List.map_cons, List.lookup_cons]
    by_cases here : key = tag value
    · subst here
      simp only [beq_self_eq_true, List.mem_cons]
      constructor
      · intro found
        cases found
        exact ⟨Or.inl rfl, rfl⟩
      · rintro ⟨_, same⟩
        rw [injective value a same]
    · have apart : (key == tag value) = false := by simpa using here
      simp only [apart, ih, List.mem_cons]
      constructor
      · rintro ⟨member, same⟩
        exact ⟨Or.inr member, same⟩
      · rintro ⟨rfl | member, same⟩
        · exact absurd same here
        · exact ⟨member, same⟩

namespace Level

theorem mem_listed (level : Level) : level ∈ listed := by
  cases level <;> decide

/-- The tag that each level is named by. -/
inductive Named : Level → String → Prop
  | raw : Named raw "raw"
  | config : Named config "config"
  | checker : Named checker "checker"
  | compilerOptions : Named compilerOptions "compilerOptions"
  | program : Named program "program"

variable {tag : String} {level : Level}

theorem named_iff : level.Named tag ↔ tag = level.tag := by
  constructor
  · intro named
    cases named <;> rfl
  · rintro rfl
    cases level <;> constructor

theorem ofTag_eq_ok_iff : ofTag tag = .ok level ↔ level.Named tag := by
  rw [named_iff]
  constructor
  · intro read
    unfold ofTag at read
    split at read
    next named found =>
      cases read
      exact (ofTag?_eq_some_iff tag level).mp found
    · nomatch read
  · rintro rfl
    exact ofTag_tag level

theorem variant_inj {level level' : Level} : level.variant = level'.variant ↔ level = level' := by
  rw [variant_eq_tag, variant_eq_tag, tag_inj]

theorem decode_text_eq_ok_iff :
    (decode (.text tag) : Except DataError Level) = .ok level ↔ level.Named tag := by
  have found := lookup_tagged (fun _ _ => variant_inj.mp) listed tag level
  simp only [mem_listed, true_and] at found
  rw [named_iff, ← variant_eq_tag, ← found]
  change decodeTagged.choose (listed.map fun level => (level.variant, level)) tag = .ok level ↔ _
  unfold decodeTagged.choose
  split
  next named chosen => simp [chosen]
  next unknown => simp [unknown]

theorem toDocument_eq_iff : level.toDocument = .text tag ↔ level.Named tag := by
  rw [toDocument, variant_eq_tag, Document.text.injEq, named_iff, eq_comm]

end Level

namespace Registration

theorem ofDocument_typed {values : SortedMap Document} {tag : String}
    (typed : values.get? "type" = some (.text tag)) (r : Registration) :
    ofDocument (.record values.bindings) = .ok r ↔
      tag = r.level.tag ∧
        ofDocument (.record (values.erase "type").bindings) = .ok { r with level := .program } := by
  have asked : given values "type" = some (.text tag) := by
    rw [given, typed]
    rfl
  have unasked : given (values.erase "type") "type" = none := given_erase_eq values "type" "type"
  have others (key : String) (apart : "type" ≠ key) :
      given (values.erase "type") key = given values key := by
    rw [given_erase_eq, if_neg apart]
  have kept := @filter_erase values "type" (by decide)
  have faults : firstFault values = none ↔
      tag ∈ Level.all.map Level.tag ∧ firstFault (values.erase "type") = none := by
    rw [firstFault_eq, firstFault_eq, asked, unasked, others "transform" (by decide),
      others "after" (by decide), others "afterDeclarations" (by decide)]
    by_cases known : tag ∈ Level.all.map Level.tag
    · simp [levelFault, known]
    · simp [levelFault, known]
  have flags (key : String) (apart : "type" ≠ key) :
      flagged (values.erase "type") key = flagged values key := by
    rw [flagged, flagged, others key apart]
  rw [(bindings_settles values).ok, (bindings_settles (values.erase "type")).ok, faults]
  constructor
  · rintro ⟨⟨_, sound⟩, reads⟩
    have level := reads.level
    rw [asked] at level
    refine ⟨Document.text.inj level, sound, ?_, ?_, ?_, ?_⟩
    · rw [others "transform" (by decide), reads.transform]
    · rw [unasked]
      rfl
    · rw [flags "afterDeclarations" (by decide), flags "after" (by decide), reads.phase]
    · rw [kept, reads.config]
  · rintro ⟨rfl, sound, reads⟩
    refine ⟨⟨Level.known_iff.mpr ⟨r.level, rfl⟩, sound⟩, ?_, ?_, ?_, ?_⟩
    · rw [← others "transform" (by decide), reads.transform]
    · rw [asked]
      rfl
    · rw [← flags "afterDeclarations" (by decide), ← flags "after" (by decide), ← reads.phase]
    · rw [← kept, ← reads.config]

theorem level_of_read {members : List (String × Document)} {r : Registration}
    (read : ofDocument (.record members) = .ok r) (level : Level) :
    r.level = level ↔
      (SortedMap.ofPairs members).get? "type" = some (.text level.tag) ∨
        (((SortedMap.ofPairs members).get? "type" = none ∨
          (SortedMap.ofPairs members).get? "type" = some .null) ∧ level = .program) := by
  have reads := (((ofDocument_settles members).ok r).mp read).2.level
  unfold given at reads
  generalize (SortedMap.ofPairs members).get? "type" = type? at reads ⊢
  cases type? with
  | none =>
    have default_level : r.level = .program := (Level.tag_inj.mp (Document.text.inj reads)).symm
    simp [default_level, eq_comm]
  | some d =>
    cases d with
    | null =>
      have default_level : r.level = .program := (Level.tag_inj.mp (Document.text.inj reads)).symm
      simp [default_level, eq_comm]
    | text tag =>
      have named : tag = r.level.tag := Document.text.inj reads
      simp [named, Level.tag_inj]
    | flag | int | float | list | record => nomatch reads

end Registration

namespace Pass
variable {V : Type}

theorem forLevel_eq_ok_iff {declared requested : Level} {visit : V} :
    forLevel declared requested visit = .ok ⟨visit⟩ ↔ requested = declared := by
  unfold forLevel
  split
  next same => simp [same]
  next apart => simp [apart]

theorem ofTag_settles (declared : Level) (tag : String) (visit : V) :
    (ofTag declared tag visit = .ok ⟨visit⟩ ↔ tag = declared.tag) ∧
    (∀ other, ofTag declared tag visit = .error (.levelMismatch declared other) ↔
      other ≠ declared ∧ tag = other.tag) ∧
    (ofTag declared tag visit = .error (.invalidLevel tag) ↔ ∀ level : Level, tag ≠ level.tag) := by
  by_cases known : tag ∈ Level.all.map Level.tag
  · obtain ⟨requested, rfl⟩ := Level.known_iff.mp known
    have asked : ofTag declared requested.tag visit = forLevel declared requested visit := by
      rw [ofTag, Level.ofTag_tag]
      rfl
    rw [asked, forLevel_eq_ok_iff]
    refine ⟨Level.tag_inj.symm, ?_, ?_⟩
    · intro other
      rw [Level.tag_inj]
      unfold forLevel
      split
      next same =>
        constructor
        · intro refused
          nomatch refused
        · rintro ⟨apart, rfl⟩
          exact absurd same apart
      next apart =>
        constructor
        · intro refused
          cases refused
          exact ⟨apart, rfl⟩
        · rintro ⟨_, rfl⟩
          rfl
    · constructor
      · intro refused
        unfold forLevel at refused
        split at refused
        · nomatch refused
        · nomatch refused
      · intro unknown
        exact absurd rfl (unknown requested)
  · have unknown : ∀ level : Level, tag ≠ level.tag := by
      intro level same
      exact known (Level.known_iff.mpr ⟨level, same⟩)
    have refused : ofTag declared tag visit = .error (.invalidLevel tag) := by
      rw [ofTag, Level.ofTag_unknown known]
      rfl
    simp [refused, unknown]

end Pass

/-- A pass is built at a tag exactly if it is the tag of its own level, and is refused at the tag of
    another level for that level and at every other string for the string. The names of levels, their
    typed values and the registrations that ask for them all know the same tags, each for the same
    level; so a pass is built for a registration that is read exactly if the registration asks for the
    level of the pass, or asks for none and the pass is one that has everything to ask. -/
theorem gates_open_for_their_level {V : Type} (visit : V) :
    (∀ (declared : Level) (tag : String),
      (Pass.ofTag declared tag visit = .ok ⟨visit⟩ ↔ declared.Named tag) ∧
      (∀ other, Pass.ofTag declared tag visit = .error (.levelMismatch declared other) ↔
        other ≠ declared ∧ other.Named tag) ∧
      (Pass.ofTag declared tag visit = .error (.invalidLevel tag) ↔
        ∀ level : Level, ¬ level.Named tag)) ∧
    (∀ (tag : String) (level : Level),
      (Level.ofTag tag = .ok level ↔ level.Named tag) ∧
      ((decode (.text tag) : Except DataError Level) = .ok level ↔ level.Named tag) ∧
      (level.toDocument = .text tag ↔ level.Named tag)) ∧
    (∀ (values : SortedMap Document) (tag : String), values.get? "type" = some (.text tag) → ∀ r,
      (Registration.ofDocument (.record values.bindings) = .ok r ↔
        r.level.Named tag ∧ Registration.ofDocument (.record (values.erase "type").bindings) =
          .ok { r with level := .program })) ∧
    ∀ (members : List (String × Document)) (r : Registration),
      Registration.ofDocument (.record members) = .ok r → ∀ declared : Level,
        (Pass.forLevel declared r.level visit = .ok ⟨visit⟩ ↔
          (∃ tag, (SortedMap.ofPairs members).get? "type" = some (.text tag) ∧ declared.Named tag) ∨
            (((SortedMap.ofPairs members).get? "type" = none ∨
              (SortedMap.ofPairs members).get? "type" = some .null) ∧ declared = .program)) := by
  refine ⟨?_, ?_, ?_, ?_⟩
  · intro declared tag
    simp only [Level.named_iff]
    exact Pass.ofTag_settles declared tag visit
  · intro tag level
    exact ⟨Level.ofTag_eq_ok_iff, Level.decode_text_eq_ok_iff, Level.toDocument_eq_iff⟩
  · intro values tag typed r
    rw [Level.named_iff]
    exact Registration.ofDocument_typed typed r
  · intro members r read declared
    rw [Pass.forLevel_eq_ok_iff]
    simp only [Level.named_iff, exists_eq_right]
    exact Registration.level_of_read read declared

theorem gate_of_checker_registration :
    let members : List (String × Document) := [("type", .text "checker"), ("after", .flag true)]
    ∃ r, Registration.ofDocument (.record members) = .ok r ∧
      Pass.forLevel .checker r.level () = .ok ⟨()⟩ ∧ Pass.forLevel .program r.level () ≠ .ok ⟨()⟩ := by
  intro members
  have read : Registration.ofDocument (.record members) =
      .ok ⟨none, .checker, .after, ⟨∅⟩⟩ := by rfl
  have gate := (gates_open_for_their_level ()).2.2.2 members _ read
  have asked : (SortedMap.ofPairs members).get? "type" = some (.text "checker") := by rfl
  refine ⟨_, read, (gate .checker).mpr (Or.inl ⟨_, asked, .checker⟩), ?_⟩
  rw [Ne, gate .program, asked]
  rintro (⟨tag, same, named⟩ | ⟨absent | null, _⟩)
  · cases same
    exact absurd (Level.named_iff.mp named) (by decide)
  · cases absent
  · cases null

end TreeVisit
