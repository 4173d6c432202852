import Mathlib.Tactic.Choose
import Mathlib.Tactic.SplitIfs
import TaskLeasing.Settings.Sources

namespace TaskLeasing

/-- The settings of a worker. -/
inductive SettingField
  | workerId
  | lockTimeoutMs
  | sweepIntervalMs
  | sweepOnStartup
  | maxConcurrent
  | leasePerDefinition
  | retryDelayMs
  | timeoutMessage
deriving DecidableEq

namespace SettingField

/-- The name that sources have for a setting. -/
def name : SettingField → String
  | workerId => "worker_id"
  | lockTimeoutMs => "default_lock_timeout_ms"
  | sweepIntervalMs => "sweep_interval_ms"
  | sweepOnStartup => "sweep_on_startup"
  | maxConcurrent => "max_concurrent_processing"
  | leasePerDefinition => "lease_per_definition_key"
  | retryDelayMs => "default_retry_delay_ms"
  | timeoutMessage => "default_response_timeout_message"

abbrev Value : SettingField → Type
  | workerId | timeoutMessage => String
  | lockTimeoutMs | sweepIntervalMs | maxConcurrent | retryDelayMs => UInt64
  | sweepOnStartup | leasePerDefinition => Bool

/-- What a value is converted to, if it can be converted to the type of the setting. -/
def read? : (field : SettingField) → SettingValue → Option field.Value
  | workerId | timeoutMessage => SettingValue.text?
  | lockTimeoutMs | sweepIntervalMs | maxConcurrent | retryDelayMs => SettingValue.word?
  | sweepOnStartup | leasePerDefinition => SettingValue.bool?

/-- The setting as some settings have it. -/
def of (s : Settings) : (field : SettingField) → field.Value
  | workerId => s.workerId
  | lockTimeoutMs => s.lockTimeoutMs
  | sweepIntervalMs => s.sweepIntervalMs
  | sweepOnStartup => s.sweepOnStartup
  | maxConcurrent => s.maxConcurrent
  | leasePerDefinition => s.leasePerDefinition
  | retryDelayMs => s.retryDelayMs
  | timeoutMessage => s.timeoutMessage

/-- The value of the variable for a setting, whose name may be in any case. -/
def inEnvironment? (field : SettingField) (environment : List (String × String)) : Option SettingValue :=
  (environment.find? fun entry => lowerName entry.1 = environmentStem ++ field.name).map fun entry => .ofText entry.2

/-- The value that the entries of a source have for a setting. -/
def inSource? (field : SettingField) (entries : SettingSource) : Option SettingValue :=
  (entries.find? fun entry => entry.1 = field.name).bind Prod.snd

/-- What a setting has to be: what its variable says if it is set, else what the file says, else the default. There is
nothing that it could be if the one that counts cannot be converted. -/
def sourced? (field : SettingField) (defaults : Settings) (environment : List (String × String))
    (entries : SettingSource) : Option field.Value :=
  match field.inEnvironment? environment, field.inSource? entries with
  | some value, _ => field.read? value
  | none, some value => field.read? value
  | none, none => some (field.of defaults)

end SettingField

/-- A name that does not lead into a setting: the name of the setting does not go on in it with a point or a bracket. -/
def Whole (name : String) : Prop :=
  ∀ field : SettingField, ∀ mark ∈ ['.', '['], ¬ (field.name.toList ++ [mark]) <+: name.toList

theorem isPathChar_of_mark {mark : Char} (among : mark ∈ ['.', '[']) : isPathChar mark = false := by
  rcases List.mem_cons.mp among with rfl | among
  · rfl
  · rw [List.mem_singleton.mp among]
    rfl

theorem mark_notMem {name : String} (plain : name.toList.all isPathChar = true) {mark : Char} (among : mark ∈ ['.', '[']) :
    mark ∉ name.toList := fun inside => by
  have path := List.all_eq_true.mp plain mark inside
  rw [isPathChar_of_mark among] at path
  cases path

/-- Names of letters, digits, underscores and hyphens lead nowhere. -/
theorem whole_of_plain {name : String} (plain : name.toList.all isPathChar = true) : Whole name :=
  fun _ _ among leads => mark_notMem plain among (leads.subset (List.mem_append_right _ (List.mem_singleton_self _)))

theorem SettingField.plain_name (field : SettingField) : field.name.toList.all isPathChar = true := by
  cases field <;> rfl

theorem isPathTail_starts {fuel : Nat} {cs : List Char} (tail : isPathTail fuel cs) (more : cs ≠ []) :
    ∃ mark ∈ ['.', '['], ∃ rest, cs = mark :: rest := by
  unfold isPathTail at tail
  split at tail <;> first | contradiction | exact ⟨_, by simp, _, rfl⟩

/-- A name either takes its value as it is, or leads from the part before a point or a bracket into that part's value. -/
theorem assignment?_cases (name : String) (value : Option SettingValue) :
    assignment? name value = value.map (fun value => (name, value)) ∨
      ∃ head, ∃ mark ∈ ['.', '['], ∃ rest, name.toList = head ++ mark :: rest ∧
        assignment? name value = some (String.ofList head, .composite) := by
  have parts := List.prefix_iff_eq_append.mp (List.takeWhile_prefix isPathChar (l := name.toList))
  unfold assignment?
  simp only
  split
  · next leads =>
    obtain ⟨mark, among, rest, starts⟩ := isPathTail_starts leads.2.2 (by simpa using leads.2.1)
    rw [starts] at parts
    exact .inr ⟨_, mark, among, rest, parts.symm, rfl⟩
  · exact .inl rfl

/-- What a name that leads into no setting sets under the name of a setting: its value, if that is its name. -/
theorem SettingTable.lookup_set {name : String} (whole : Whole name) (table : SettingTable) (value : Option SettingValue)
    (field : SettingField) :
    (table.set name value).lookup field.name =
      if name = field.name then value.or (table.lookup field.name) else table.lookup field.name := by
  unfold SettingTable.set
  rcases assignment?_cases name value with plain | ⟨head, mark, among, rest, parts, leads⟩
  · rw [plain]
    cases value with
    | none => simp
    | some value =>
      rw [Option.map_some, Option.toList_some, List.singleton_append, List.lookup_cons, Option.some_or]
      by_cases own : name = field.name
      · simp [own]
      · rw [beq_eq_false_iff_ne.mpr (Ne.symm own), if_neg own]
  · have longer : name ≠ field.name := fun same =>
      mark_notMem field.plain_name among (by rw [← same, parts]; simp)
    have other : field.name ≠ String.ofList head := fun same =>
      whole field mark among ⟨rest, by rw [same, parts]; simp⟩
    rw [leads, Option.toList_some, List.singleton_append, List.lookup_cons, beq_eq_false_iff_ne.mpr other,
      if_neg longer]

/-- After a source in which no two entries are for one setting, its value stands over what was set before. -/
theorem SettingTable.lookup_layer {source : SettingSource} (whole : ∀ entry ∈ source, Whole entry.1)
    {field : SettingField} (apart : source.Pairwise fun first second => first.1 = field.name → second.1 ≠ field.name)
    (table : SettingTable) :
    (table.layer source).lookup field.name = (field.inSource? source).or (table.lookup field.name) := by
  -- the table is general, since each entry of the source changes it
  induction source generalizing table with
  | nil => rfl
  | cons entry rest ih =>
    obtain ⟨first, others⟩ := List.pairwise_cons.mp apart
    have later := ih (fun entry among => whole entry (List.mem_cons_of_mem _ among)) others (table.set entry.1 entry.2)
    rw [SettingTable.layer, List.foldl_cons, ← SettingTable.layer, later, lookup_set (whole entry List.mem_cons_self)]
    unfold SettingField.inSource?
    by_cases own : entry.1 = field.name
    · have none : rest.find? (fun entry => entry.1 = field.name) = none :=
        List.find?_eq_none.mpr fun other among => by simpa using first other among own
      simp [own, none]
    · simp [own]

/-- Settings are read off a table if each of them can be read under its name. -/
theorem Settings.ofTable?_eq_some_iff {table : SettingTable} {s : Settings} :
    Settings.ofTable? table = some s ↔ ∀ field : SettingField, table.read? field.read? field.name = some (field.of s) := by
  constructor
  · intro read field
    simp only [ofTable?, Option.bind_eq_bind, Option.bind_eq_some_iff, Option.some.injEq] at read
    obtain ⟨_, workerId, _, lockTimeout, _, sweepInterval, _, sweepOnStartup, _, maxConcurrent, _, leasePerDefinition, _,
      retryDelay, _, timeoutMessage, rfl⟩ := read
    cases field <;> assumption
  · intro read
    simp only [ofTable?, Option.bind_eq_bind, Option.bind_eq_some_iff, Option.some.injEq]
    exact ⟨_, read .workerId, _, read .lockTimeoutMs, _, read .sweepIntervalMs, _, read .sweepOnStartup, _,
      read .maxConcurrent, _, read .leasePerDefinition, _, read .retryDelayMs, _, read .timeoutMessage, rfl⟩

/-- Settings have a value of their own under each name, and it is read as what it was. -/
theorem SettingField.read?_source (field : SettingField) (s : Settings) :
    ∃ value, field.inSource? s.source = some value ∧ field.read? value = some (field.of s) := by
  cases field <;> exact ⟨_, rfl, by simp [read?, SettingValue.text?, SettingValue.word?, SettingValue.bool?, of]⟩

theorem pairwise_of_nodup {source : SettingSource} (apart : (source.map Prod.fst).Nodup) (field : SettingField) :
    source.Pairwise fun first second => first.1 = field.name → second.1 ≠ field.name :=
  (List.pairwise_map.mp apart).imp fun other own same => other (own.trans same.symm)

theorem SettingField.lookup_defaults (field : SettingField) (s : Settings) :
    (SettingTable.layer [] s.source).lookup field.name = field.inSource? s.source := by
  have keys : s.source.map Prod.fst = [workerId, lockTimeoutMs, sweepIntervalMs, sweepOnStartup, maxConcurrent,
      leasePerDefinition, retryDelayMs, timeoutMessage].map name := rfl
  have whole : ∀ entry ∈ s.source, Whole entry.1 := fun entry among => by
    obtain ⟨own, _, same⟩ := List.mem_map.mp (keys ▸ List.mem_map_of_mem among)
    exact same ▸ whole_of_plain own.plain_name
  have apart : (s.source.map Prod.fst).Nodup := by
    rw [keys]
    decide
  rw [SettingTable.lookup_layer whole (pairwise_of_nodup apart field), List.lookup_nil, Option.or_none]

theorem dottedName_plain {cs : List Char} (plain : '.' ∉ dottedName cs) : dottedName cs = cs := by
  fun_induction dottedName cs with
  | case1 => simp at plain
  | case2 c rest _ ih => rw [ih fun inside => plain (List.mem_cons_of_mem _ inside)]
  | case3 => rfl

theorem SettingField.dottedName_name (field : SettingField) : dottedName field.name.toList = field.name.toList := by
  cases field <;> decide

/-- The variable for a setting is the one whose name is that of the setting after the stem, in whatever case. -/
theorem variableSetting?_eq_name_iff {name : String} {field : SettingField} :
    variableSetting? name = some field.name ↔ lowerName name = environmentStem ++ field.name := by
  unfold variableSetting?
  constructor
  · intro names
    simp only [Option.ite_none_right_eq_some, Option.some.injEq, List.isPrefixOf_iff_prefix] at names
    obtain ⟨⟨rest, parts⟩, dotted⟩ := names
    rw [← parts, List.drop_left] at dotted
    have named : dottedName rest = field.name.toList := by rw [← dotted, String.toList_ofList]
    rw [dottedName_plain (named ▸ mark_notMem field.plain_name (by simp))] at named
    rw [← String.toList_inj, String.toList_append, ← parts, named]
  · intro same
    rw [same, String.toList_append]
    simp [field.dottedName_name]

/-- What the environment sets for a setting is the value of its variable. -/
theorem SettingField.inSource?_environment (field : SettingField) (environment : List (String × String)) :
    field.inSource? (environmentSource environment) = field.inEnvironment? environment := by
  unfold inSource? inEnvironment? environmentSource
  induction environment with
  | nil => rfl
  | cons entry rest ih =>
    by_cases own : lowerName entry.1 = environmentStem ++ field.name
    · have sets := variableSetting?_eq_name_iff.mpr own
      rw [List.find?_cons_of_pos (by simpa using own), List.filterMap_cons_some (by rw [sets]; rfl),
        List.find?_cons_of_pos (by simp)]
      simp
    · rw [List.find?_cons_of_neg (by simpa using own), ← ih]
      cases sets : variableSetting? entry.1 with
      | none => rw [List.filterMap_cons_none (by rw [sets]; rfl)]
      | some name =>
        have other : name ≠ field.name := fun same => own (variableSetting?_eq_name_iff.mp (same ▸ sets))
        rw [List.filterMap_cons_some (by rw [sets]; rfl), List.find?_cons_of_neg (by simpa using other)]

/-- Settings with the same value of every field are the same. -/
theorem Settings.ext_fields {s t : Settings} (same : ∀ field : SettingField, field.of s = field.of t) : s = t := by
  obtain ⟨_, _, _, _, _, _, _, _⟩ := s
  obtain ⟨_, _, _, _, _, _, _, _⟩ := t
  rw [Settings.mk.injEq]
  exact ⟨same .workerId, same .lockTimeoutMs, same .sweepIntervalMs, same .sweepOnStartup, same .maxConcurrent,
    same .leasePerDefinition, same .retryDelayMs, same .timeoutMessage⟩

theorem Settings.validate_cases (s : Settings) :
    s.validate = .ok s ∨ ∃ field reason, s.validate = .error (.invalidValue field reason) := by
  unfold validate fault?
  split_ifs <;> simp

/-- Layers as they should be. The file can be read if there is one, no two names of a layer are the same in lower case,
and none of them leads into a setting. -/
structure Layered (environment : List (String × String)) (file : SettingsFile) (entries : SettingSource) : Prop where
  readable : file.source = .ok entries
  vars_apart : (environment.map fun entry => lowerName entry.1).Nodup
  vars_whole : ∀ entry ∈ environment, ∀ name, variableSetting? entry.1 = some name → Whole name
  keys_apart : (entries.map Prod.fst).Nodup
  keys_whole : ∀ entry ∈ entries, Whole entry.1

namespace Layered

variable {environment : List (String × String)} {file : SettingsFile} {entries : SettingSource}

/-- Under the name of a setting stands what the setting has to be. -/
theorem read? (layered : Layered environment file entries) (defaults : Settings) (field : SettingField) :
    (layeredTable defaults environment entries).read? field.read? field.name =
      field.sourced? defaults environment entries := by
  have whole : ∀ entry ∈ environmentSource environment, Whole entry.1 := fun entry among => by
    obtain ⟨source, member, sets⟩ := List.mem_filterMap.mp among
    obtain ⟨name, names, rfl⟩ := Option.map_eq_some_iff.mp sets
    exact layered.vars_whole source member name names
  have apart : (environmentSource environment).Pairwise fun first second =>
      first.1 = field.name → second.1 ≠ field.name := by
    refine List.pairwise_filterMap.mpr ((List.pairwise_map.mp layered.vars_apart).imp fun other => ?_)
    intro source sets source' sets' own own'
    obtain ⟨name, names, rfl⟩ := Option.map_eq_some_iff.mp sets
    obtain ⟨name', names', rfl⟩ := Option.map_eq_some_iff.mp sets'
    have first := variableSetting?_eq_name_iff.mp (names.trans (congrArg some own))
    have second := variableSetting?_eq_name_iff.mp (names'.trans (congrArg some own'))
    exact other (first.trans second.symm)
  obtain ⟨value, default, read⟩ := field.read?_source defaults
  rw [SettingTable.read?, layeredTable, SettingTable.lookup_layer whole apart,
    SettingTable.lookup_layer layered.keys_whole (pairwise_of_nodup layered.keys_apart field),
    field.inSource?_environment, field.lookup_defaults, default, SettingField.sourced?]
  cases field.inEnvironment? environment <;> cases field.inSource? entries <;> simp [read]

/-- Loading has one of two ends: the settings are validated if all of them can be read, else they are refused. -/
theorem load_cases (layered : Layered environment file entries) (defaults : Settings) :
    (∃ s, (∀ field : SettingField, field.sourced? defaults environment entries = some (field.of s)) ∧
      Settings.load defaults environment file = s.validate) ∨
    ((∃ field : SettingField, field.sourced? defaults environment entries = none) ∧
      Settings.load defaults environment file = .error .unreadable) := by
  have table := layered.read? defaults
  rw [Settings.load, layered.readable]
  by_cases all : ∀ field : SettingField, ∃ value, field.sourced? defaults environment entries = some value
  · choose value reads using all
    let s : Settings := ⟨value .workerId, value .lockTimeoutMs, value .sweepIntervalMs, value .sweepOnStartup,
      value .maxConcurrent, value .leasePerDefinition, value .retryDelayMs, value .timeoutMessage⟩
    have sourced : ∀ field : SettingField, field.sourced? defaults environment entries = some (field.of s) := fun field => by
      cases field <;> exact reads _
    refine .inl ⟨s, sourced, ?_⟩
    simp only [Settings.ofTable?_eq_some_iff.mpr fun field => (table field).trans (sourced field)]
  · simp only [not_forall, not_exists] at all
    obtain ⟨field, unread⟩ := all
    refine .inr ⟨⟨field, Option.eq_none_iff_forall_ne_some.mpr unread⟩, ?_⟩
    cases read : Settings.ofTable? (layeredTable defaults environment entries) with
    | none => simp only [read]
    | some s => exact absurd ((table field).symm.trans (Settings.ofTable?_eq_some_iff.mp read field)) (unread _)

theorem load_eq_ok_iff (layered : Layered environment file entries) {defaults s : Settings} :
    Settings.load defaults environment file = .ok s ↔
      (∀ field : SettingField, field.sourced? defaults environment entries = some (field.of s)) ∧ s.validate = .ok s := by
  rcases layered.load_cases defaults with ⟨t, sourced, ends⟩ | ⟨⟨field, unread⟩, ends⟩
  · rw [ends]
    constructor
    · intro valid
      rcases t.validate_cases with own | ⟨_, _, refused⟩
      · obtain rfl : t = s := Except.ok.inj (own.symm.trans valid)
        exact ⟨sourced, own⟩
      · cases refused.symm.trans valid
    · rintro ⟨sources, valid⟩
      obtain rfl : t = s := Settings.ext_fields fun field => Option.some.inj ((sourced field).symm.trans (sources field))
      exact valid
  · rw [ends]
    exact ⟨nofun, fun sources => by cases unread.symm.trans (sources.1 field)⟩

end Layered

/-- Where a setting is to come from is the same in two pairs of layers: the same variable is set for it, or none is and the
files say the same of it. -/
def SettingField.Alike (field : SettingField) (environment environment' : List (String × String))
    (entries entries' : SettingSource) : Prop :=
  field.inEnvironment? environment' = field.inEnvironment? environment ∧
    (field.inEnvironment? environment = none → field.inSource? entries' = field.inSource? entries)

theorem SettingField.Alike.sourced? {field : SettingField} {environment environment' : List (String × String)}
    {entries entries' : SettingSource} (alike : field.Alike environment environment' entries entries')
    (defaults : Settings) :
    field.sourced? defaults environment' entries' = field.sourced? defaults environment entries := by
  rw [SettingField.sourced?, SettingField.sourced?, alike.1]
  cases unset : field.inEnvironment? environment with
  | some value => rfl
  | none => rw [alike.2 unset]

/-- Settings come from layers, each from its own. The value of a setting is what its variable says if that is set, else
what the file says, else the default. Loading succeeds if each of the eight can be converted to its type and all together
are valid, and then each is what its own source says; no other values are looked at. So the result stays the same whatever
the file says of a setting that a variable sets, whatever other names the file has and whatever other variables there are,
and where one setting comes from makes no difference to another. -/
theorem Settings.load_layered (defaults : Settings) :
    (∀ environment file entries, Layered environment file entries →
      (∀ s, Settings.load defaults environment file = .ok s ↔
        (∀ field : SettingField, field.sourced? defaults environment entries = some (field.of s)) ∧ s.validate = .ok s) ∧
      (Settings.load defaults environment file = .error .unreadable ↔
        ∃ field : SettingField, field.sourced? defaults environment entries = none)) ∧
    ∀ environment environment' file file' entries entries', Layered environment file entries →
      Layered environment' file' entries' →
        ((∀ field : SettingField, field.Alike environment environment' entries entries') →
          Settings.load defaults environment' file' = Settings.load defaults environment file) ∧
        ∀ overridden : SettingField,
          (∀ field ≠ overridden, SettingField.Alike field environment environment' entries entries') →
            ∀ s s', Settings.load defaults environment file = .ok s → Settings.load defaults environment' file' = .ok s' →
              ∀ field ≠ overridden, SettingField.of s' field = SettingField.of s field := by
  refine ⟨fun environment file entries layered => ⟨fun s => layered.load_eq_ok_iff, ?_⟩,
    fun environment environment' file file' entries entries' layered layered' => ⟨fun alike => ?_, ?_⟩⟩
  · rcases layered.load_cases defaults with ⟨s, sourced, ends⟩ | ⟨unread, ends⟩
    · have readable : s.validate ≠ .error .unreadable := fun unreadable => by
        rcases s.validate_cases with valid | ⟨_, _, refused⟩
        · cases valid.symm.trans unreadable
        · cases refused.symm.trans unreadable
      rw [ends]
      exact ⟨fun unreadable => absurd unreadable readable, fun ⟨field, unread⟩ => by cases unread.symm.trans (sourced field)⟩
    · exact ⟨fun _ => unread, fun _ => ends⟩
  · have same := fun field => (alike field).sourced? defaults
    rcases layered.load_cases defaults with ⟨s, sourced, ends⟩ | ⟨⟨field, unread⟩, ends⟩ <;>
      rcases layered'.load_cases defaults with ⟨s', sourced', ends'⟩ | ⟨⟨field', unread'⟩, ends'⟩
    · obtain rfl : s' = s := ext_fields fun field =>
        Option.some.inj ((sourced' field).symm.trans ((same field).trans (sourced field)))
      rw [ends, ends']
    · cases unread'.symm.trans ((same field').trans (sourced field'))
    · cases unread.symm.trans ((same field).symm.trans (sourced' field))
    · rw [ends, ends']
  · intro overridden alike s s' loads loads' field other
    have sourced := (layered.load_eq_ok_iff.mp loads).1 field
    have sourced' := (layered'.load_eq_ok_iff.mp loads').1 field
    exact Option.some.inj (sourced'.symm.trans (((alike field other).sourced? defaults).trans sourced))

/-- A variable takes the place of a bad value in the file. -/
theorem Settings.load_layered_overridden :
    let defaults := Settings.defaults "worker"
    let named := [("extask__Worker_Id", "w-1")]
    let file := SettingsFile.present "handler.json" "\x7b\"a\":1,\"Worker_Id\":null\x7d"
    Settings.load defaults named file = .ok { defaults with workerId := "w-1" } ∧
    Settings.load defaults (("PATH", "/bin") :: named) .none = Settings.load defaults named file ∧
    ∀ s, Settings.load defaults [] .none = .ok s → ∀ field ≠ SettingField.workerId,
      SettingField.of { defaults with workerId := "w-1" } field = SettingField.of s field := by
  intro defaults named file
  have entries : fileEntries? "handler.json" "\x7b\"a\":1,\"Worker_Id\":null\x7d" =
      some [("Worker_Id", some .null), ("a", some (.integer 1))] := by decide +kernel
  have readable : file.source = .ok [("worker_id", some .null), ("a", some (.integer 1))] := by
    simp only [file, SettingsFile.source, entries, Option.elim_some]
    rfl
  have one : ∀ entry ∈ named, ∀ name, variableSetting? entry.1 = some name → Whole name := by
    rintro entry among name sets
    obtain rfl := List.mem_singleton.mp among
    exact Option.some.inj sets ▸ whole_of_plain SettingField.workerId.plain_name
  have both : ∀ entry ∈ [("worker_id", some SettingValue.null), ("a", some (.integer 1))], Whole entry.1 := by
    simp only [List.forall_mem_cons, List.not_mem_nil, false_imp_iff, implies_true, and_true]
    exact ⟨whole_of_plain SettingField.workerId.plain_name, whole_of_plain rfl⟩
  have set : Layered named file _ := ⟨readable, by decide, one, by decide, both⟩
  have bare : Layered (("PATH", "/bin") :: named) .none [] := by
    refine ⟨rfl, by decide, fun entry among name sets => ?_, by decide, nofun⟩
    rcases List.mem_cons.mp among with rfl | among
    · cases sets
    · exact one entry among name sets
  have nothing : Layered [] .none _ := ⟨rfl, by decide, nofun, by decide, nofun⟩
  have valid : Settings.fault? { defaults with workerId := "w-1" } = none := by decide
  have loads : Settings.load defaults named file = .ok { defaults with workerId := "w-1" } := by
    refine (((load_layered defaults).1 _ _ _ set).1 _).mpr ⟨fun field => ?_, by rw [validate, valid]⟩
    cases field <;> rfl
  refine ⟨loads, ((load_layered defaults).2 _ _ _ _ _ _ set bare).1 fun field => ?_, fun s unset =>
    ((load_layered defaults).2 _ _ _ _ _ _ nothing set).2 .workerId (fun field other => ?_) _ _ unset loads⟩
  · cases field
    case workerId => exact ⟨rfl, nofun⟩
    all_goals exact ⟨rfl, fun _ => rfl⟩
  · cases field <;> first | exact absurd rfl other | exact ⟨rfl, fun _ => rfl⟩

end TaskLeasing
