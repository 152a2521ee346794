import TreeVisit.Proofs.SortedMap
import TreeVisit.Registration

/- What a registration is read as. Each reserved key makes one demand on the document under it; the
   first that is not met is the fault of the whole, and a registration that meets them all is read as
   what its reserved keys say together with all its other members. -/
namespace TreeVisit

/-- The reading fails with this fault, if there is one, and else gives the only result that agrees. -/
structure Settles {α : Type} (read : Except Fault α) (fault? : Option Fault) (agrees : α → Prop) :
    Prop where
  error : ∀ fault, read = .error fault ↔ fault? = some fault
  ok : ∀ result, read = .ok result ↔ fault? = none ∧ agrees result

namespace Settles
variable {α β : Type} {read other : Except Fault α} {fault? : Option Fault} {agrees : α → Prop}

theorem fails (fault : Fault) : Settles (.error fault) (some fault) agrees where
  error _ := by simp
  ok _ := by simp

theorem gives {a : α} (only : ∀ result, result = a ↔ agrees result) :
    Settles (.ok a) none agrees where
  error _ := by simp
  ok result := by simp [← only result, eq_comm]

theorem bind {next : α → Except Fault β} {later? : Option Fault} {agrees' : β → Prop}
    (first : Settles read fault? agrees)
    (onwards : ∀ a, agrees a → Settles (next a) later? agrees') :
    Settles (read >>= next) (fault?.or later?) agrees' := by
  cases read with
  | error fault =>
    have found := (first.error fault).mp rfl
    rw [found]
    exact fails fault
  | ok a =>
    obtain ⟨sound, agreed⟩ := (first.ok a).mp rfl
    rw [sound]
    exact onwards a agreed

theorem unique (settled : Settles read fault? agrees) (settled' : Settles other fault? agrees) :
    read = other := by
  cases read with
  | error fault => exact ((settled'.error fault).mpr ((settled.error fault).mp rfl)).symm
  | ok a => exact ((settled'.ok a).mpr ((settled.ok a).mp rfl)).symm

end Settles

namespace Level

theorem known_iff {tag : String} : tag ∈ all.map Level.tag ↔ ∃ level : Level, tag = level.tag := by
  constructor
  · intro member
    obtain ⟨level, _, same⟩ := List.mem_map.mp member
    exact ⟨level, same.symm⟩
  · rintro ⟨level, rfl⟩
    cases level <;> decide

theorem tag_inj {level level' : Level} : level.tag = level'.tag ↔ level = level' := by
  cases level <;> cases level' <;> decide

theorem ofTag_tag (level : Level) : ofTag level.tag = .ok level := by
  rw [ofTag, (ofTag?_eq_some_iff level.tag level).mpr rfl]

theorem ofTag_unknown {tag : String} (unknown : tag ∉ all.map Level.tag) :
    ofTag tag = .error (.invalidLevel tag) := by
  have none_named : ofTag? tag = none := by
    apply Option.eq_none_iff_forall_ne_some.mpr
    intro level named
    exact unknown (known_iff.mpr ⟨level, (ofTag?_eq_some_iff tag level).mp named⟩)
  rw [ofTag, none_named]

end Level

namespace Registration

def present : Option Document → Option Document
  | some .null => none
  | found => found

def given (values : SortedMap Document) (key : String) : Option Document :=
  present (values.get? key)

def transformFault : Document → Option Fault
  | .text _ => none
  | d => some (.invalidConfig (.transformNotAText d.kindName))

def levelFault : Document → Option Fault
  | .text tag => if tag ∈ Level.all.map Level.tag then none else some (.invalidLevel tag)
  | d => some (.invalidLevel d.print)

def flagFault (key : String) : Document → Option Fault
  | .flag _ => none
  | d => some (.invalidConfig (.notAFlag key d.kindName))

/-- The reserved keys in the order in which they are looked at, each with the fault of a document
    that it does not take. -/
def demands : List (String × (Document → Option Fault)) :=
  [("transform", transformFault), ("type", levelFault), ("after", flagFault "after"),
    ("afterDeclarations", flagFault "afterDeclarations")]

def firstFault (values : SortedMap Document) : Option Fault :=
  demands.findSome? fun demand => (given values demand.1).bind demand.2

def flagged (values : SortedMap Document) (key : String) : Bool :=
  match given values key with
  | some (.flag b) => b
  | _ => false

/-- The registration says what the members give under the reserved keys, and is configured by exactly
    the members under all other keys. -/
structure Reads (values : SortedMap Document) (r : Registration) : Prop where
  transform : given values "transform" = r.transform?.map Document.text
  level : (given values "type").getD (.text Level.program.tag) = .text r.level.tag
  phase : r.phase =
    if flagged values "afterDeclarations" then .afterDeclarations
    else if flagged values "after" then .after
    else .before
  config : r.config.values.bindings = values.bindings.filter fun m => m.1 ∉ reservedKeys

theorem readTransform_settles (found : Option Document) :
    Settles (readTransform found) ((present found).bind transformFault)
      fun transform? => present found = transform?.map Document.text := by
  cases found with
  | none => exact Settles.gives fun result => by cases result <;> simp [present]
  | some d =>
    cases d with
    | null => exact Settles.gives fun result => by cases result <;> simp [present]
    | text s => exact Settles.gives fun result => by cases result <;> simp [present, eq_comm]
    | flag | int | float | list | record => exact Settles.fails _

theorem readLevel_settles (found : Option Document) :
    Settles (readLevel found) ((present found).bind levelFault)
      fun level => (present found).getD (.text Level.program.tag) = .text level.tag := by
  have asked (level : Level) : Settles (.ok level) none
      fun result => Document.text level.tag = .text result.tag :=
    Settles.gives fun result => by rw [Document.text.injEq, Level.tag_inj, eq_comm]
  cases found with
  | none => exact asked default
  | some d =>
    cases d with
    | null => exact asked default
    | text tag =>
      by_cases known : tag ∈ Level.all.map Level.tag
      · obtain ⟨level, rfl⟩ := Level.known_iff.mp known
        simpa [readLevel, present, levelFault, known, Level.ofTag_tag] using asked level
      · simpa [readLevel, present, levelFault, known, Level.ofTag_unknown known] using Settles.fails _
    | flag | int | float | list | record => exact Settles.fails _

theorem readFlag_settles (key : String) (values : SortedMap Document) :
    Settles (readFlag key (values.get? key)) ((given values key).bind (flagFault key))
      fun b => b = flagged values key := by
  unfold flagged given
  cases values.get? key with
  | none => exact Settles.gives fun result => Iff.rfl
  | some d =>
    cases d with
    | null | flag => exact Settles.gives fun result => Iff.rfl
    | text | int | float | list | record => exact Settles.fails _

theorem reads_unique {values : SortedMap Document} {r r' : Registration} (reads : Reads values r)
    (reads' : Reads values r') : r = r' := by
  obtain ⟨transform?, level, phase, ⟨config⟩⟩ := r
  obtain ⟨transform'?, level', phase', ⟨config'⟩⟩ := r'
  have transforms : transform? = transform'? :=
    Option.map_injective (fun _ _ => Document.text.inj) (reads.transform.symm.trans reads'.transform)
  have levels : level = level' :=
    Level.tag_inj.mp (Document.text.inj (reads.level.symm.trans reads'.level))
  have phases : phase = phase' := reads.phase.trans reads'.phase.symm
  have configs : config = config' :=
    SortedMap.bindings_inj (reads.config.trans reads'.config.symm)
  rw [transforms, levels, phases, configs]

theorem firstFault_eq (values : SortedMap Document) :
    firstFault values =
      ((given values "transform").bind transformFault).or
        (((given values "type").bind levelFault).or
          (((given values "after").bind (flagFault "after")).or
            (((given values "afterDeclarations").bind (flagFault "afterDeclarations")).or none))) := by
  have or_rest (demand : String × (Document → Option Fault)) (rest) :
      (demand :: rest).findSome? (fun demand => (given values demand.1).bind demand.2) =
        ((given values demand.1).bind demand.2).or
          (rest.findSome? fun demand => (given values demand.1).bind demand.2) := by
    rw [List.findSome?_cons]
    cases (given values demand.1).bind demand.2 <;> rfl
  simp only [firstFault, demands, or_rest, List.findSome?_nil]

theorem ofDocument_settles (members : List (String × Document)) :
    Settles (ofDocument (.record members)) (firstFault (SortedMap.ofPairs members))
      (Reads (SortedMap.ofPairs members)) := by
  generalize values_eq : SortedMap.ofPairs members = values
  rw [ofDocument, values_eq, firstFault_eq]
  refine (readTransform_settles _).bind fun transform? transform => ?_
  refine (readLevel_settles _).bind fun level leveled => ?_
  refine (readFlag_settles "after" values).bind fun after flag => ?_
  refine (readFlag_settles "afterDeclarations" values).bind fun afterDeclarations flag' => ?_
  have reads : Reads values ⟨transform?, level, .ofFlags after afterDeclarations,
      ⟨reservedKeys.foldl SortedMap.erase values⟩⟩ :=
    ⟨transform, leveled, by rw [← flag, ← flag', Phase.ofFlags],
      SortedMap.bindings_foldl_erase reservedKeys values⟩
  refine Settles.gives fun result => ?_
  constructor
  · rintro rfl
    exact reads
  · intro reads'
    exact reads_unique reads' reads

theorem bindings_settles (values : SortedMap Document) :
    Settles (ofDocument (.record values.bindings)) (firstFault values) (Reads values) := by
  have settled := ofDocument_settles values.bindings
  rwa [SortedMap.ofPairs_bindings] at settled

def reservedMembers (r : Registration) : List (String × Document) :=
  (r.transform?.toList.map fun transform => ("transform", .text transform)) ++
    [("type", .text r.level.tag), ("after", .flag (r.phase == .after)),
      ("afterDeclarations", .flag (r.phase == .afterDeclarations))]

def members (r : Registration) : SortedMap Document :=
  r.reservedMembers.foldl (fun values m => values.insert m.1 m.2) r.config.values

def toDocument (r : Registration) : Document := .record r.members.bindings

theorem members_reserved {r : Registration} (free : r.config.contains "transform" = false) :
    r.members.get? "transform" = r.transform?.map Document.text ∧
    r.members.get? "type" = some (.text r.level.tag) ∧
    r.members.get? "after" = some (.flag (r.phase == .after)) ∧
    r.members.get? "afterDeclarations" = some (.flag (r.phase == .afterDeclarations)) := by
  have vacant : r.config.values.get? "transform" = none := by
    simpa [Config.contains, SortedMap.contains] using free
  unfold members reservedMembers
  cases r.transform? with
  | none => simp [SortedMap.get?_insert, vacant]
  | some transform => simp [SortedMap.get?_insert]

theorem members_others {r : Registration}
    (free : ∀ key ∈ reservedKeys, r.config.contains key = false) :
    reservedKeys.foldl SortedMap.erase r.members = r.config.values := by
  apply SortedMap.ext
  intro key
  rw [SortedMap.get?_foldl_erase]
  by_cases reserved : key ∈ reservedKeys
  · have vacant : r.config.values.get? key = none := by
      simpa [Config.contains, SortedMap.contains] using free key reserved
    rw [if_pos reserved, vacant]
  · have fresh : key ∉ r.reservedMembers.map (·.1) := by
      intro member
      apply reserved
      unfold reservedMembers at member
      generalize r.transform? = transform? at member
      cases transform? with
      | none => exact List.mem_cons_of_mem _ member
      | some transform => exact member
    rw [if_neg reserved]
    exact SortedMap.get?_foldl_insert fresh r.config.values

theorem members_sound {r : Registration}
    (free : ∀ key ∈ reservedKeys, r.config.contains key = false) :
    firstFault r.members = none ∧ Reads r.members r := by
  obtain ⟨transform, level, after, afterDeclarations⟩ := members_reserved (free "transform" (by decide))
  have known : r.level.tag ∈ Level.all.map Level.tag := Level.known_iff.mpr ⟨r.level, rfl⟩
  have given_transform : given r.members "transform" = r.transform?.map Document.text := by
    rw [given, transform]
    cases r.transform? <;> rfl
  have given_level : given r.members "type" = some (.text r.level.tag) := by
    rw [given, level]
    rfl
  have given_after : given r.members "after" = some (.flag (r.phase == .after)) := by
    rw [given, after]
    rfl
  have given_declarations :
      given r.members "afterDeclarations" = some (.flag (r.phase == .afterDeclarations)) := by
    rw [given, afterDeclarations]
    rfl
  refine ⟨?_, given_transform, ?_, ?_, ?_⟩
  · rw [firstFault_eq, given_transform, given_level, given_after, given_declarations]
    cases r.transform? <;> simp [transformFault, levelFault, flagFault, known]
  · rw [given_level]
    rfl
  · rw [flagged, flagged, given_after, given_declarations]
    cases r.phase <;> rfl
  · rw [← SortedMap.bindings_foldl_erase, members_others free]

theorem Reads.congr {values values' : SortedMap Document} {r : Registration} (reads : Reads values r)
    (gives : given values = given values')
    (keeps : values.bindings.filter (fun m => m.1 ∉ reservedKeys) =
      values'.bindings.filter fun m => m.1 ∉ reservedKeys) : Reads values' r where
  transform := gives ▸ reads.transform
  level := gives ▸ reads.level
  phase := by
    have phase := reads.phase
    unfold flagged at phase ⊢
    rwa [gives] at phase
  config := reads.config.trans keeps

theorem given_erase_eq (values : SortedMap Document) (key other : String) :
    given (values.erase key) other = if key = other then none else given values other := by
  unfold given
  rw [SortedMap.get?_erase]
  split
  · rfl
  · rfl

theorem given_erase {values : SortedMap Document} {key : String}
    (null : values.get? key = some .null) : given (values.erase key) = given values := by
  funext other
  rw [given_erase_eq]
  by_cases same : key = other
  · subst same
    rw [if_pos rfl, given, null]
    rfl
  · rw [if_neg same]

theorem filter_erase {values : SortedMap Document} {key : String} (reserved : key ∈ reservedKeys) :
    (values.erase key).bindings.filter (fun m => m.1 ∉ reservedKeys) =
      values.bindings.filter fun m => m.1 ∉ reservedKeys := by
  rw [SortedMap.bindings_erase, List.filter_filter]
  apply List.filter_congr
  intro m _
  by_cases same : m.1 = key
  · simp [same, reserved]
  · simp [same]

theorem ofDocument_erase {values : SortedMap Document} {key : String} (reserved : key ∈ reservedKeys)
    (null : values.get? key = some .null) :
    ofDocument (.record values.bindings) = ofDocument (.record (values.erase key).bindings) := by
  have faults : firstFault (values.erase key) = firstFault values := by
    simp only [firstFault, given_erase null]
  have reads : Reads (values.erase key) = Reads values := by
    funext r
    apply propext
    constructor
    · intro reads
      exact reads.congr (given_erase null) (filter_erase reserved)
    · intro reads
      exact reads.congr (given_erase null).symm (filter_erase reserved).symm
  have erased := bindings_settles (values.erase key)
  rw [faults, reads] at erased
  exact (bindings_settles values).unique erased

/-- A document that is no object is refused as such. An object is refused for the first of its reserved
    keys, in the order of the demands, that holds what the key does not take, and is else read as
    exactly what it says. A reserved key that holds null might as well be absent; the configuration is
    the object without its reserved keys; and every registration whose configuration is free of
    reserved keys is what is read from the object that asks for it. -/
theorem decoded_exactly :
    (∀ d : Document, (∀ members, d ≠ .record members) →
      ofDocument d = .error (.invalidConfig (.entryNotARecord d.kindName))) ∧
    (∀ members, let values := SortedMap.ofPairs members
      (∀ fault, ofDocument (.record members) = .error fault ↔ firstFault values = some fault) ∧
      (∀ r, ofDocument (.record members) = .ok r ↔ firstFault values = none ∧ Reads values r)) ∧
    (∀ (values : SortedMap Document) (key : String),
      key ∈ reservedKeys → values.get? key = some .null →
      ofDocument (.record values.bindings) = ofDocument (.record (values.erase key).bindings)) ∧
    (∀ (values : SortedMap Document) r, ofDocument (.record values.bindings) = .ok r →
      r.config.values.bindings = values.bindings.filter fun m => m.1 ∉ reservedKeys) ∧
    (∀ r : Registration, (∀ key ∈ reservedKeys, r.config.contains key = false) →
      ofDocument r.toDocument = .ok r) := by
  refine ⟨?_, ?_, ?_, ?_, ?_⟩
  · intro d other
    cases d with
    | record members => exact absurd rfl (other members)
    | null | flag | int | float | text | list => rfl
  · intro members values
    exact ⟨(ofDocument_settles members).error, (ofDocument_settles members).ok⟩
  · intro values key reserved null
    exact ofDocument_erase reserved null
  · intro values r read
    exact (((bindings_settles values).ok r).mp read).2.config
  · intro r free
    exact ((bindings_settles r.members).ok r).mpr (members_sound free)

end Registration
end TreeVisit
