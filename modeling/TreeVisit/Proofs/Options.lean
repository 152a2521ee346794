import TreeVisit.Options
import TreeVisit.Proofs.Config

/- Options as they are read from a configuration. Each of their fields goes by the member of its name:
   one that is there is taken if it has the kind that the field takes, one that is missing leaves the
   default, and members of other names are passed over. -/
namespace TreeVisit.Options

inductive Member where
  | target
  | module
  | strict
  | removeComments
  deriving DecidableEq

namespace Member

def key : Member → String
  | target => "target"
  | module => "module"
  | strict => "strict"
  | removeComments => "removeComments"

def takes : Member → Document → Bool
  | target, .text _ => true
  | module, .null | module, .text _ => true
  | strict, .flag _ | removeComments, .flag _ => true
  | _, _ => false

def expected : Member → String
  | target | module => "a string"
  | strict | removeComments => "a boolean"

def default : Member → Document
  | target => .text "es2020"
  | module => .null
  | strict => .flag true
  | removeComments => .flag false

def listed : List Member := [target, module, strict, removeComments]

def refusal (member : Member) (d : Document) : DataError := .wrongKind d.found member.expected

theorem key_inj {member other : Member} : member.key = other.key ↔ member = other := by
  cases member <;> cases other <;> decide

theorem mem_names_iff {name : String} :
    name ∈ recordType.fields.map (·.name) ↔ ∃ member : Member, name = member.key := by
  constructor
  · intro named
    simp only [recordType, List.map_cons, List.map_nil, List.mem_cons, List.not_mem_nil,
      or_false] at named
    obtain rfl | rfl | rfl | rfl := named
    exacts [⟨target, rfl⟩, ⟨module, rfl⟩, ⟨strict, rfl⟩, ⟨removeComments, rfl⟩]
  · rintro ⟨member, rfl⟩
    cases member <;> decide

end Member

def field (o : Options) : Member → Document
  | .target => .text o.target
  | .module => (o.module?.map Document.text).getD .null
  | .strict => .flag o.strict
  | .removeComments => .flag o.removeComments

/-- The options are the defaults but for what the members say. -/
def Reads (values : SortedMap Document) (o : Options) : Prop :=
  ∀ member : Member, o.field member = (values.get? member.key).getD member.default

def WellTyped (values : SortedMap Document) : Prop :=
  ∀ (member : Member) d, values.get? member.key = some d → member.takes d = true

/-- The error is for the member with the least key among those that are not taken. -/
def FirstFault (values : SortedMap Document) (cause : DataError) : Prop :=
  ∃ (member : Member) (d : Document), values.get? member.key = some d ∧ member.takes d = false ∧
    cause = member.refusal d ∧
    ∀ (other : Member) d', other.key < member.key → values.get? other.key = some d' →
      other.takes d' = true

def Taken (m : String × Document) : Prop :=
  ∀ member : Member, m.1 = member.key → member.takes m.2 = true

def Refused (m : String × Document) (cause : DataError) : Prop :=
  ∃ member : Member, m.1 = member.key ∧ member.takes m.2 = false ∧ cause = member.refusal m.2

theorem field_inj {o o' : Options} (same : o.field = o'.field) : o = o' := by
  obtain ⟨target, module?, strict, removeComments⟩ := o
  obtain ⟨target', module'?, strict', removeComments'⟩ := o'
  obtain rfl : target = target' := Document.text.inj (congrFun same .target)
  obtain rfl : strict = strict' := Document.flag.inj (congrFun same .strict)
  obtain rfl : removeComments = removeComments' :=
    Document.flag.inj (congrFun same .removeComments)
  have modules := congrFun same .module
  cases module? <;> cases module'? <;> simp_all [field]

theorem field_default (member : Member) : field Inhabited.default member = member.default := by
  cases member <;> rfl

theorem setMember_unknown (o : Options) {m : String × Document}
    (unknown : ∀ member : Member, m.1 ≠ member.key) : recordType.setMember o m = .ok o := by
  have unnamed : recordType.fields.find? (·.name == m.1) = none := by
    rw [List.find?_eq_none]
    intro f listed same
    have named := List.mem_map.mpr ⟨f, listed, eq_of_beq same⟩
    obtain ⟨member, same⟩ := Member.mem_names_iff.mp named
    exact unknown member same
  rw [RecordType.setMember, unnamed]

theorem setMember_known (o : Options) (member : Member) (d : Document) :
    (member.takes d = false ∧ recordType.setMember o (member.key, d) = .error (member.refusal d)) ∨
      member.takes d = true ∧ ∃ o', recordType.setMember o (member.key, d) = .ok o' ∧
        ∀ other, o'.field other = if member = other then d else o.field other := by
  cases member with
  | target =>
    cases d with
    | text s => exact .inr ⟨rfl, { o with target := s }, rfl, fun other => by cases other <;> rfl⟩
    | null | flag | int | float | list | record => exact .inl ⟨rfl, rfl⟩
  | module =>
    cases d with
    | null => exact .inr ⟨rfl, { o with module? := none }, rfl, fun other => by cases other <;> rfl⟩
    | text s =>
      exact .inr ⟨rfl, { o with module? := some s }, rfl, fun other => by cases other <;> rfl⟩
    | flag | int | float | list | record => exact .inl ⟨rfl, rfl⟩
  | strict =>
    cases d with
    | flag b => exact .inr ⟨rfl, { o with strict := b }, rfl, fun other => by cases other <;> rfl⟩
    | null | text | int | float | list | record => exact .inl ⟨rfl, rfl⟩
  | removeComments =>
    cases d with
    | flag b =>
      exact .inr ⟨rfl, { o with removeComments := b }, rfl, fun other => by cases other <;> rfl⟩
    | null | text | int | float | list | record => exact .inl ⟨rfl, rfl⟩

theorem setMember_cases (o : Options) (m : String × Document) :
    (∃ cause, Refused m cause ∧ recordType.setMember o m = .error cause) ∨
      Taken m ∧ ∃ o', recordType.setMember o m = .ok o' ∧
        ∀ member : Member, o'.field member = if m.1 = member.key then m.2 else o.field member := by
  obtain ⟨name, d⟩ := m
  by_cases known : ∃ member : Member, name = member.key
  · obtain ⟨member, rfl⟩ := known
    obtain ⟨refused, outcome⟩ | ⟨taken, o', outcome, fields⟩ := setMember_known o member d
    · exact .inl ⟨_, ⟨member, rfl, refused, rfl⟩, outcome⟩
    · refine .inr ⟨?_, o', outcome, ?_⟩
      · intro other same
        rwa [← Member.key_inj.mp same]
      · simpa only [Member.key_inj] using fields
  · have unknown : ∀ member : Member, name ≠ member.key := not_exists.mp known
    refine .inr ⟨fun member same => absurd same (unknown member), o, setMember_unknown o unknown, ?_⟩
    exact fun member => (if_neg (unknown member)).symm

theorem foldlM_cases (members : Bindings Document) (o : Options) :
    (∃ before m after, members = before ++ m :: after ∧ (∀ m' ∈ before, Taken m') ∧
        ∃ cause, Refused m cause ∧ members.foldlM recordType.setMember o = .error cause) ∨
      (∀ m ∈ members, Taken m) ∧ ∃ o', members.foldlM recordType.setMember o = .ok o' ∧
        ∀ member, o'.field member = (lastWritten member.key members).getD (o.field member) := by
  induction members generalizing o with
  | nil => exact .inr ⟨List.forall_mem_nil _, o, rfl, fun member => rfl⟩
  | cons m rest ih =>
    obtain ⟨cause, refused, outcome⟩ | ⟨taken, o', outcome, fields⟩ := setMember_cases o m
    · refine .inl ⟨[], m, rest, rfl, List.forall_mem_nil _, cause, refused, ?_⟩
      rw [List.foldlM_cons, outcome]
      rfl
    · have passed : (m :: rest).foldlM recordType.setMember o =
          rest.foldlM recordType.setMember o' := by
        rw [List.foldlM_cons, outcome]
        rfl
      rw [passed]
      obtain ⟨before, m', after, rfl, sound, refused⟩ | ⟨sound, o'', outcome', fields'⟩ := ih o'
      · exact .inl ⟨m :: before, m', after, rfl, List.forall_mem_cons.mpr ⟨taken, sound⟩, refused⟩
      · refine .inr ⟨List.forall_mem_cons.mpr ⟨taken, sound⟩, o'', outcome', ?_⟩
        intro member
        rw [fields', fields, lastWritten_cons]
        by_cases here : m.1 = member.key
        · cases lastWritten member.key rest <;> simp [here]
        · cases lastWritten member.key rest <;> simp [here]

theorem decodeAll_eq (c : Config) :
    c.decodeAll =
      (c.values.bindings.foldlM recordType.setMember Inhabited.default).mapError Fault.dataFault := by
  change (recordType.ofMembers c.values.bindings).mapError Fault.dataFault = _
  unfold RecordType.ofMembers
  change ((c.values.bindings.foldlM recordType.setMember Inhabited.default) >>= pure).mapError
    Fault.dataFault = _
  rw [bind_pure]

theorem firstFault_of_split {values : SortedMap Document} {before after : Bindings Document}
    {m : String × Document} {cause : DataError} (split : values.bindings = before ++ m :: after)
    (sound : ∀ m' ∈ before, Taken m') (refused : Refused m cause) : FirstFault values cause := by
  obtain ⟨member, same, refused, rfl⟩ := refused
  have ascending := values.ascending
  have here : (member.key, m.2) ∈ values.bindings := by
    rw [← same, split]
    exact List.mem_append_right before List.mem_cons_self
  refine ⟨member, m.2, (Bindings.get?_eq_some_iff ascending).mpr here, refused, rfl, ?_⟩
  intro other d less found
  have listed : (other.key, d) ∈ values.bindings := (Bindings.get?_eq_some_iff ascending).mp found
  rw [split] at listed ascending
  rw [← same] at less
  obtain ⟨_, later, _⟩ := List.pairwise_append.mp ascending
  rcases List.mem_append.mp listed with early | late
  · exact sound _ early other rfl
  · rcases List.mem_cons.mp late with rfl | late
    · exact absurd less (String.lt_irrefl _)
    · exact absurd less (String.lt_asymm ((List.pairwise_cons.mp later).1 _ late))

theorem decodeAll_cases (c : Config) :
    (∃ cause, FirstFault c.values cause ∧
        (c.decodeAll : Except Fault Options) = .error (.dataFault cause)) ∨
      WellTyped c.values ∧ ∃ o : Options, c.decodeAll = .ok o ∧ Reads c.values o := by
  rw [decodeAll_eq]
  obtain ⟨before, m, after, split, sound, cause, refused, outcome⟩ |
    ⟨sound, o, outcome, fields⟩ := foldlM_cases c.values.bindings Inhabited.default
  · rw [outcome]
    exact .inl ⟨cause, firstFault_of_split split sound refused, rfl⟩
  · rw [outcome]
    refine .inr ⟨?_, o, rfl, ?_⟩
    · intro member d found
      have listed := (Bindings.get?_eq_some_iff c.values.ascending).mp found
      exact sound _ listed member rfl
    · intro member
      rw [fields, SortedMap.lastWritten_bindings, field_default]

theorem Member.takes_field (member : Member) (o : Options) : member.takes (o.field member) = true := by
  cases member with
  | target | strict | removeComments => rfl
  | module =>
    unfold field
    cases o.module? <;> rfl

theorem Reads.wellTyped {values : SortedMap Document} {o : Options} (reads : Reads values o) :
    WellTyped values := by
  intro member d found
  have same : o.field member = d := by
    rw [reads member, found]
    rfl
  rw [← same]
  exact member.takes_field o

theorem FirstFault.not_wellTyped {values : SortedMap Document} {cause : DataError}
    (first : FirstFault values cause) : ¬ WellTyped values := by
  obtain ⟨member, d, found, refused, _⟩ := first
  intro sound
  rw [sound member d found] at refused
  cases refused

theorem FirstFault.unique {values : SortedMap Document} {cause cause' : DataError}
    (first : FirstFault values cause) (first' : FirstFault values cause') : cause = cause' := by
  obtain ⟨member, d, found, refused, rfl, sound⟩ := first
  obtain ⟨member', d', found', refused', rfl, sound'⟩ := first'
  have least : ¬ member'.key < member.key := by
    intro less
    rw [sound member' d' less found'] at refused'
    cases refused'
  have least' : ¬ member.key < member'.key := by
    intro less
    rw [sound' member d less found] at refused
    cases refused
  obtain rfl : member = member' :=
    Member.key_inj.mp (String.le_antisymm (String.not_lt.mp least) (String.not_lt.mp least'))
  obtain rfl : d = d' := Option.some.inj (found.symm.trans found')
  rfl

theorem decodeAll_ok_iff {c : Config} {o : Options} : c.decodeAll = .ok o ↔ Reads c.values o := by
  obtain ⟨cause, first, outcome⟩ | ⟨_, o', outcome, reads⟩ := decodeAll_cases c
  · rw [outcome]
    constructor
    · intro given
      cases given
    · intro reads
      exact absurd reads.wellTyped first.not_wellTyped
  · rw [outcome]
    constructor
    · intro given
      rwa [← Except.ok.inj given]
    · intro reads'
      have same : o'.field = o.field := funext fun member => (reads member).trans (reads' member).symm
      rw [field_inj same]

theorem decodeAll_error_iff {c : Config} {fault : Fault} :
    (c.decodeAll : Except Fault Options) = .error fault ↔
      ∃ cause, FirstFault c.values cause ∧ fault = .dataFault cause := by
  obtain ⟨cause, first, outcome⟩ | ⟨sound, o, outcome, _⟩ := decodeAll_cases c
  · rw [outcome]
    constructor
    · intro given
      exact ⟨cause, first, (Except.error.inj given).symm⟩
    · rintro ⟨cause', first', rfl⟩
      rw [first.unique first']
  · rw [outcome]
    constructor
    · intro given
      cases given
    · rintro ⟨cause, first, _⟩
      exact absurd sound first.not_wellTyped

theorem decodeAll_isOk_iff (c : Config) :
    (∃ o : Options, c.decodeAll = .ok o) ↔ WellTyped c.values := by
  constructor
  · rintro ⟨o, outcome⟩
    exact (decodeAll_ok_iff.mp outcome).wellTyped
  · intro sound
    obtain ⟨cause, first, _⟩ | ⟨_, o, outcome, _⟩ := decodeAll_cases c
    · exact absurd sound first.not_wellTyped
    · exact ⟨o, outcome⟩

theorem decodeAll_congr {c c' : Config}
    (same : ∀ member : Member, c.get? member.key = c'.get? member.key) :
    (c.decodeAll : Except Fault Options) = c'.decodeAll := by
  have same : ∀ member : Member, c.values.get? member.key = c'.values.get? member.key := same
  cases outcome : (c.decodeAll : Except Fault Options) with
  | ok o =>
    have reads := decodeAll_ok_iff.mp outcome
    symm
    apply decodeAll_ok_iff.mpr
    intro member
    rw [reads member, same]
  | error fault =>
    obtain ⟨cause, first, rfl⟩ := decodeAll_error_iff.mp outcome
    symm
    apply decodeAll_error_iff.mpr
    refine ⟨cause, ?_, rfl⟩
    unfold FirstFault at first ⊢
    simpa only [same] using first

def reset (o : Options) (dropped : List Member) : Options where
  target := if .target ∈ dropped then "es2020" else o.target
  module? := if .module ∈ dropped then none else o.module?
  strict := if .strict ∈ dropped then true else o.strict
  removeComments := if .removeComments ∈ dropped then false else o.removeComments

theorem field_reset (o : Options) (dropped : List Member) (member : Member) :
    (o.reset dropped).field member =
      if member ∈ dropped then member.default else o.field member := by
  cases member with
  | target => exact apply_ite Document.text _ _ _
  | module => exact apply_ite (fun module? => (Option.map Document.text module?).getD .null) _ _ _
  | strict | removeComments => exact apply_ite Document.flag _ _ _

theorem toDocument_eq (o : Options) :
    o.toDocument = .ofMembers (Member.listed.map fun member => (member.key, o.field member)) := by
  obtain ⟨target, module?, strict, removeComments⟩ := o
  cases module? <;> rfl

theorem exists_whole (o : Options) :
    ∃ whole, Config.ofDocument o.toDocument = .ok whole ∧
      ∀ member : Member, whole.values.get? member.key = some (o.field member) := by
  rw [toDocument_eq]
  refine ⟨_, Config.ofDocument_ofMembers _, ?_⟩
  intro member
  rw [SortedMap.get?_ofPairs]
  cases member <;> rfl

/-- Of the members of these options some fields are dropped and members of other names added. -/
def altered (whole : Config) (dropped : List Member) (extra : List (String × Document)) : Config :=
  ⟨extra.foldl (fun values m => values.insert m.1 m.2)
    ((dropped.map Member.key).foldl SortedMap.erase whole.values)⟩

theorem reads_altered {whole : Config} {o : Options}
    (found : ∀ member : Member, whole.values.get? member.key = some (o.field member))
    (dropped : List Member) {extra : List (String × Document)}
    (unknown : ∀ m ∈ extra, ∀ member : Member, m.1 ≠ member.key) :
    Reads (altered whole dropped extra).values (o.reset dropped) := by
  intro member
  have fresh : member.key ∉ extra.map (·.1) := by
    intro added
    obtain ⟨m, listed, same⟩ := List.mem_map.mp added
    exact unknown m listed member same
  have gone : member.key ∈ dropped.map Member.key ↔ member ∈ dropped :=
    List.mem_map_of_injective fun _ _ => Member.key_inj.mp
  rw [field_reset, altered, SortedMap.get?_foldl_insert fresh, SortedMap.get?_foldl_erase, found,
    if_congr gone rfl rfl]
  by_cases here : member ∈ dropped
  · rw [if_pos here, if_pos here, Option.getD_none]
  · rw [if_neg here, if_neg here, Option.getD_some]

/-- A configuration is read as options exactly if each member that is there has the kind that the field
    of its name takes; the options then are the defaults but for these members. Otherwise the error is
    for the first member, in the order of keys, that is not taken. No other member has an influence.
    So options are read back from the record that they are written as, with the default in each field
    that was dropped from it, whatever members of other names were added. -/
theorem decoded_member_by_member :
    (∀ c : Config,
      ((∃ o : Options, c.decodeAll = .ok o) ↔ WellTyped c.values) ∧
      (∀ o : Options, c.decodeAll = .ok o ↔ Reads c.values o) ∧
      ∀ fault, (c.decodeAll : Except Fault Options) = .error fault ↔
        ∃ cause, FirstFault c.values cause ∧ fault = .dataFault cause) ∧
    (∀ c c' : Config, (∀ member : Member, c.get? member.key = c'.get? member.key) →
      (c.decodeAll : Except Fault Options) = c'.decodeAll) ∧
    ∀ o : Options, ∃ whole, Config.ofDocument o.toDocument = .ok whole ∧ whole.decodeAll = .ok o ∧
      ∀ (dropped : List Member) (extra : List (String × Document)),
        (∀ m ∈ extra, ∀ member : Member, m.1 ≠ member.key) →
        (altered whole dropped extra).decodeAll = .ok (o.reset dropped) := by
  refine ⟨?_, fun c c' => decodeAll_congr, ?_⟩
  · exact fun c => ⟨decodeAll_isOk_iff c, fun o => decodeAll_ok_iff, fun fault => decodeAll_error_iff⟩
  · intro o
    obtain ⟨whole, made, found⟩ := exists_whole o
    refine ⟨whole, made, ?_, ?_⟩
    · apply decodeAll_ok_iff.mpr
      intro member
      rw [found, Option.getD_some]
    · intro dropped extra unknown
      exact decodeAll_ok_iff.mpr (reads_altered found dropped unknown)

theorem dropped_strictness_is_on :
    ∃ whole, Config.ofDocument (⟨"es5", some "amd", false, true⟩ : Options).toDocument = .ok whole ∧
      (altered whole [.strict] [("lib", .list [])]).decodeAll =
        .ok (⟨"es5", some "amd", true, true⟩ : Options) ∧
      (altered whole [.strict] [("lib", .list [])]).decodeAll =
        ((altered whole [.strict] []).decodeAll : Except Fault Options) := by
  obtain ⟨_, unseen, again⟩ := decoded_member_by_member
  obtain ⟨whole, made, _, changed⟩ := again ⟨"es5", some "amd", false, true⟩
  have other : ∀ member : Member, "lib" ≠ member.key := by
    intro member
    cases member <;> decide
  refine ⟨whole, made, ?_, unseen _ _ ?_⟩
  · exact changed [.strict] [("lib", .list [])] (List.forall_mem_singleton.mpr other)
  · intro member
    exact (SortedMap.get?_insert _ _ _ _).trans (if_neg (other member))

end TreeVisit.Options
