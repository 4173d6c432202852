import TaskLeasing.Proofs.Registry
import TaskLeasing.System.Step
import Mathlib.Data.List.Induction

namespace TaskLeasing

/-- Whether a text can be a part of a key: some character of it is not blank, and none is the separator. -/
def IsKeyPart (part : String) : Prop := (∃ c ∈ part.toList, isBlank c = false) ∧ keySeparator ∉ part.toList

/-- Whether a registration can be made under a key. -/
def RegistrationKey.Valid (key : RegistrationKey) : Prop := IsKeyPart key.definitionKey ∧ IsKeyPart key.topic

namespace RegistrationKey

variable {a b c key : RegistrationKey}

theorem partFault?_eq_none_iff {field part : String} : partFault? field part = none ↔ IsKeyPart part := by
  have blank : isBlankText part = true ↔ ¬ ∃ c ∈ part.toList, isBlank c = false := by
    simp [isBlankText]
  unfold partFault? IsKeyPart
  by_cases empty : isBlankText part = true
  · rw [if_pos empty]
    exact iff_of_false (Option.some_ne_none _) fun valid => blank.mp empty valid.1
  · have visible : ∃ c ∈ part.toList, isBlank c = false := not_not.mp (mt blank.mpr empty)
    rw [if_neg empty]
    by_cases parted : keySeparator ∈ part.toList
    · rw [if_pos (List.contains_iff_mem.mpr parted)]
      exact iff_of_false (Option.some_ne_none _) fun valid => valid.2 parted
    · rw [if_neg (mt List.contains_iff_mem.mp parted)]
      exact iff_of_true rfl ⟨visible, parted⟩

/-- A key is made of two parts just when both can be parts of one. -/
theorem ofParts_eq_ok_iff {definitionKey topic : String} :
    ofParts definitionKey topic = .ok key ↔ key.Valid ∧ key = ⟨definitionKey, topic⟩ := by
  unfold ofParts
  cases first : partFault? "process definition key" definitionKey with
  | some reason =>
    simp only [reduceCtorEq, false_iff]
    rintro ⟨⟨valid, _⟩, rfl⟩
    rw [partFault?_eq_none_iff.mpr valid] at first
    cases first
  | none => cases second : partFault? "topic" topic with
    | some reason =>
      simp only [reduceCtorEq, false_iff]
      rintro ⟨⟨_, valid⟩, rfl⟩
      rw [partFault?_eq_none_iff.mpr valid] at second
      cases second
    | none =>
      simp only [Except.ok.injEq]
      refine ⟨?_, fun ⟨_, same⟩ => same.symm⟩
      rintro rfl
      exact ⟨⟨partFault?_eq_none_iff.mp first, partFault?_eq_none_iff.mp second⟩, rfl⟩

theorem before_irrefl (key : RegistrationKey) : ¬ key.before key := by
  rintro (less | ⟨_, less⟩) <;> exact String.lt_irrefl _ less

theorem before_trans (first : a.before b) (second : b.before c) : a.before c := by
  rcases first with less | ⟨same, less⟩ <;> rcases second with less' | ⟨same', less'⟩
  · exact .inl (String.lt_trans less less')
  · exact .inl (same' ▸ less)
  · exact .inl (same ▸ less')
  · exact .inr ⟨same.trans same', String.lt_trans less less'⟩

/-- Of two keys one goes before the other. -/
theorem before_of_not_before (other : a ≠ b) (notBefore : ¬ a.before b) : b.before a := by
  have strict {s t : String} (apart : s ≠ t) (notLess : ¬ s < t) : t < s :=
    not_not.mp fun notGreater => apart (String.le_antisymm (String.not_lt.mp notGreater) (String.not_lt.mp notLess))
  by_cases same : a.definitionKey = b.definitionKey
  · have topics : a.topic ≠ b.topic := fun same' => other (by cases a; cases b; simp_all)
    exact .inr ⟨same.symm, strict topics fun less => notBefore (.inr ⟨same, less⟩)⟩
  · exact .inl (strict same fun less => notBefore (.inl less))

/-- The text of a key falls apart into its parts at the separator. -/
theorem splitOn_text (valid : key.Valid) :
    key.text.toList.splitOn keySeparator = [key.definitionKey.toList, key.topic.toList] := by
  have text : key.text.toList = [keySeparator].intercalate [key.definitionKey.toList, key.topic.toList] := by
    simp [RegistrationKey.text, List.intercalate]
  rw [text]
  refine List.splitOn_intercalate keySeparator (fun part member => ?_) (List.cons_ne_nil _ _)
  rcases List.mem_cons.mp member with rfl | last
  · exact valid.1.2
  · exact List.mem_singleton.mp last ▸ valid.2.2

theorem text_injective (validA : a.Valid) (validB : b.Valid) (same : a.text = b.text) : a = b := by
  have parts := splitOn_text validA
  rw [same, splitOn_text validB] at parts
  obtain ⟨first, rest⟩ := List.cons.inj parts
  obtain ⟨last, _⟩ := List.cons.inj rest
  cases a
  cases b
  rw [RegistrationKey.mk.injEq]
  exact ⟨String.toList_inj.mp first.symm, String.toList_inj.mp last.symm⟩

end RegistrationKey

/-- A call to register a contract for tasks of a topic in instances of a definition. -/
structure Enrolment where
  definitionKey : String
  topic : String
  lockTimeout : Option Span
  vars : VariableScope
  contract : Contract

/-- The pair that a contract is to be registered for. -/
def Enrolment.key (call : Enrolment) : RegistrationKey := ⟨call.definitionKey, call.topic⟩

/-- The registration that a call asks for. -/
def Enrolment.registration (call : Enrolment) : Registration :=
  ⟨call.key, call.lockTimeout, call.vars, call.contract⟩

namespace Registry

/-- The answer to a call, and the registry it leaves. -/
def enrol (registry : Registry) (call : Enrolment) : Except RegistrationError Registration × Registry :=
  match registry.register call.definitionKey call.topic call.lockTimeout call.vars call.contract with
  | .ok (entry, after) => (.ok entry, after)
  | .error fault => (.error fault, registry)

/-- So a dispatcher keeps its registry. -/
theorem register_registry (s : System) (call : Enrolment) :
    (s.register call.definitionKey call.topic call.lockTimeout call.vars call.contract).2.registry =
      (s.registry.enrol call).2 := by
  unfold System.register enrol
  cases s.registry.register call.definitionKey call.topic call.lockTimeout call.vars call.contract with
  | ok made => rfl
  | error fault => cases fault <;> rfl

/-- The registry after calls one after the other. -/
def after (registry : Registry) (calls : List Enrolment) : Registry :=
  calls.foldl (fun registry call => (registry.enrol call).2) registry

/-- The registrations made by calls one after the other, in order. -/
def granted (registry : Registry) : List Enrolment → List Registration
  | [] => []
  | call :: rest => (registry.enrol call).1.toOption.toList ++ (registry.enrol call).2.granted rest

theorem after_concat (registry : Registry) (before : List Enrolment) (call : Enrolment) :
    registry.after (before ++ [call]) = ((registry.after before).enrol call).2 := by
  simp [after]

theorem granted_concat (registry : Registry) (before : List Enrolment) (call : Enrolment) :
    registry.granted (before ++ [call]) =
      registry.granted before ++ ((registry.after before).enrol call).1.toOption.toList := by
  induction before generalizing registry with
  | nil => simp [granted, after]
  | cons first rest ih => simp only [List.cons_append, granted, ih, List.append_assoc, after, List.foldl_cons]

variable {registry : Registry} {made : List Registration} {call : Enrolment} {entry : Registration}

/-- A call for a valid pair that no registration is under is given the registration that it asks for. -/
theorem enrol_accepted (valid : call.key.Valid) (free : registry.lookup call.key = none) :
    registry.enrol call = (.ok call.registration, ⟨insertRegistration call.registration registry.entries⟩) := by
  have parts : RegistrationKey.ofParts call.definitionKey call.topic = .ok call.key :=
    RegistrationKey.ofParts_eq_ok_iff.mpr ⟨valid, rfl⟩
  simp [enrol, register, parts, contains, free, Enrolment.registration]

/-- Any other call is refused. -/
theorem enrol_refused (barred : ¬ (call.key.Valid ∧ registry.lookup call.key = none)) :
    ∃ fault, registry.enrol call = (.error fault, registry) := by
  unfold enrol register
  cases parts : RegistrationKey.ofParts call.definitionKey call.topic with
  | error fault => exact ⟨fault, rfl⟩
  | ok key =>
    obtain ⟨valid, rfl⟩ := RegistrationKey.ofParts_eq_ok_iff.mp parts
    have taken : registry.contains ⟨call.definitionKey, call.topic⟩ = true := by
      rw [contains, Option.isSome_iff_ne_none]
      exact fun free => barred ⟨valid, free⟩
    simp only [taken, if_true]
    exact ⟨_, rfl⟩

theorem enrol_ok_iff : (registry.enrol call).1 = .ok entry ↔
    (call.key.Valid ∧ registry.lookup call.key = none) ∧ entry = call.registration := by
  by_cases free : call.key.Valid ∧ registry.lookup call.key = none
  · rw [enrol_accepted free.1 free.2]
    simp [free, eq_comm]
  · obtain ⟨fault, refused⟩ := enrol_refused free
    rw [refused]
    exact iff_of_false (fun accepted => by cases accepted) fun accepted => free accepted.1

/-- A registry with the registrations that were made: each under a valid key, in the strict order of the keys. -/
structure Holds (registry : Registry) (made : List Registration) : Prop where
  listed : registry.entries.Perm made
  ordered : registry.entries.Pairwise fun a b => a.key.before b.key
  valid : ∀ entry ∈ registry.entries, entry.key.Valid

theorem holds_empty : empty.Holds [] := ⟨.refl _, .nil, by simp [empty]⟩

namespace Holds

theorem distinct (holds : registry.Holds made) : registry.Distinct := by
  refine List.pairwise_map.mpr (holds.ordered.imp fun before same => ?_)
  rw [same] at before
  exact RegistrationKey.before_irrefl _ before

/-- What is found under a key is the registration that was made for it. -/
theorem lookup_iff (holds : registry.Holds made) {key : RegistrationKey} :
    registry.lookup key = some entry ↔ entry ∈ made ∧ entry.key = key := by
  rw [← holds.listed.mem_iff]
  refine ⟨fun found => ⟨List.mem_of_find?_eq_some found, lookup_key found⟩, ?_⟩
  rintro ⟨member, rfl⟩
  exact holds.distinct.lookup_mem member

theorem free_iff (holds : registry.Holds made) {key : RegistrationKey} :
    registry.lookup key = none ↔ ∀ entry ∈ made, entry.key ≠ key := by
  rw [Option.eq_none_iff_forall_ne_some]
  simp only [ne_eq, holds.lookup_iff, not_and]

/-- An entry under a new key is put where it keeps the order. -/
theorem ordered_insert {entries : List Registration} (ordered : entries.Pairwise fun a b => a.key.before b.key)
    (new : ∀ other ∈ entries, entry.key ≠ other.key) :
    (insertRegistration entry entries).Pairwise fun a b => a.key.before b.key := by
  induction entries with
  | nil => exact List.pairwise_singleton _ _
  | cons head rest ih =>
    obtain ⟨first, ordered'⟩ := List.pairwise_cons.mp ordered
    unfold insertRegistration
    split
    · next before =>
      refine List.pairwise_cons.mpr ⟨fun other member => ?_, ordered⟩
      rcases List.mem_cons.mp member with rfl | later
      · exact before
      · exact RegistrationKey.before_trans before (first other later)
    · next notBefore =>
      have after := RegistrationKey.before_of_not_before (new head (List.mem_cons_self ..)) notBefore
      refine List.pairwise_cons.mpr ⟨fun other member => ?_, ih ordered' fun other later =>
        new other (List.mem_cons_of_mem _ later)⟩
      rcases List.mem_cons.mp ((insertRegistration_perm entry rest).mem_iff.mp member) with rfl | later
      · exact after
      · exact first other later

/-- Each call adds the registration that it is given, if any. -/
theorem enrol (holds : registry.Holds made) (call : Enrolment) :
    (registry.enrol call).2.Holds (made ++ (registry.enrol call).1.toOption.toList) := by
  by_cases free : call.key.Valid ∧ registry.lookup call.key = none
  · have perm := insertRegistration_perm call.registration registry.entries
    have new := holds.free_iff.mp free.2
    rw [enrol_accepted free.1 free.2]
    refine ⟨?_, ordered_insert holds.ordered fun other member same => ?_, fun entry member => ?_⟩
    · exact (perm.trans (holds.listed.cons _)).trans (List.perm_append_singleton _ _).symm
    · exact new other (holds.listed.mem_iff.mp member) same.symm
    · rcases List.mem_cons.mp (perm.mem_iff.mp member) with rfl | old
      · exact free.1
      · exact holds.valid entry old
  · obtain ⟨fault, refused⟩ := enrol_refused free
    rw [refused]
    simpa [Except.toOption] using holds

theorem texts_distinct (holds : registry.Holds made) : (registry.entries.map fun entry => entry.key.text).Nodup := by
  refine List.pairwise_map.mpr (holds.ordered.imp_of_mem fun atA atB before same => ?_)
  rw [RegistrationKey.text_injective (holds.valid _ atA) (holds.valid _ atB) same] at before
  exact RegistrationKey.before_irrefl _ before

end Holds

/-- After any calls the registry has what they were given. -/
theorem holds_after (calls : List Enrolment) : (empty.after calls).Holds (empty.granted calls) := by
  induction calls using List.reverseRecOn with
  | nil => exact holds_empty
  | append_singleton before call ih =>
    rw [after_concat, granted_concat]
    exact ih.enrol call

/-- Of calls to register contracts one after the other, those are accepted whose two parts have a visible character
each and no separator, and whose pair was not accepted before; the others leave the registry as it is. What is found
under a pair, whatever its texts are, is the registration that was made for just this pair. The registrations are listed
once each in the strict order of their keys; the texts of these differ and fall apart into their parts; and the numbers of
registrations are those of what was made. -/
theorem registrations_kept (calls : List Enrolment) :
    let registry := empty.after calls
    let made := empty.granted calls
    (∀ before call later, calls = before ++ call :: later →
      ((∃ entry, ((empty.after before).enrol call).1 = .ok entry) ↔
        IsKeyPart call.definitionKey ∧ IsKeyPart call.topic ∧
          ∀ entry ∈ empty.granted before, entry.key ≠ ⟨call.definitionKey, call.topic⟩) ∧
      (∀ entry, ((empty.after before).enrol call).1 = .ok entry → entry = call.registration) ∧
      ∀ fault, ((empty.after before).enrol call).1 = .error fault →
        empty.after (before ++ [call]) = empty.after before) ∧
    (∀ definitionKey topic entry, registry.lookup ⟨definitionKey, topic⟩ = some entry ↔
      entry ∈ made ∧ entry.key = ⟨definitionKey, topic⟩) ∧
    registry.entries.Perm made ∧
    (registry.entries.Pairwise fun a b => a.key.before b.key) ∧
    (registry.entries.map fun entry => entry.key.text).Nodup ∧
    (∀ entry ∈ registry.entries,
      entry.key.text.toList.splitOn '#' = [entry.key.definitionKey.toList, entry.key.topic.toList]) ∧
    (∀ key, registry.contains key = true ↔ ∃ entry ∈ registry.entries, entry.key = key) ∧
    registry.size = made.length ∧
    registry.asyncCount = made.countP (fun entry => entry.contract.isAsync) ∧
    registry.syncCount = made.countP (fun entry => !entry.contract.isAsync) ∧
    registry.syncCount + registry.asyncCount = registry.size := by
  intro registry made
  have holds : registry.Holds made := holds_after calls
  refine ⟨fun before call later _ => ⟨?_, fun entry accepted => (enrol_ok_iff.mp accepted).2, fun fault refused => ?_⟩,
    fun definitionKey topic entry => holds.lookup_iff, holds.listed, holds.ordered, holds.texts_distinct,
    fun entry member => RegistrationKey.splitOn_text (holds.valid entry member), fun key => ?_,
    holds.listed.length_eq, holds.listed.countP_eq _, holds.listed.countP_eq _, ?_⟩
  · have free : (empty.after before).lookup call.key = none ↔ _ := (holds_after before).free_iff
    constructor
    · rintro ⟨entry, accepted⟩
      obtain ⟨⟨valid, new⟩, _⟩ := enrol_ok_iff.mp accepted
      exact ⟨valid.1, valid.2, free.mp new⟩
    · rintro ⟨first, second, new⟩
      exact ⟨call.registration, enrol_ok_iff.mpr ⟨⟨⟨first, second⟩, free.mpr new⟩, rfl⟩⟩
  · rw [after_concat]
    by_cases new : call.key.Valid ∧ (empty.after before).lookup call.key = none
    · rw [enrol_accepted new.1 new.2] at refused
      cases refused
    · obtain ⟨_, same⟩ := enrol_refused new
      rw [same]
  · unfold contains
    rw [Option.isSome_iff_exists]
    simp only [holds.lookup_iff, holds.listed.mem_iff]
  · have split : registry.entries.length = registry.syncCount +
        registry.entries.countP fun entry => decide ¬ (!entry.contract.isAsync) = true :=
      List.length_eq_countP_add_countP _
    simp only [Bool.not_eq_true, Bool.not_eq_false', Bool.decide_eq_true] at split
    exact split.symm

/-- A contract for a pair that has one already is refused, and so is one for a definition key that holds the separator;
the two that are left are listed by their topics. -/
theorem registrations_kept_twice :
    let money : Enrolment := ⟨"order", "money", none, .all, .sync⟩
    let parted : Enrolment := ⟨"order#money", "goods", none, .all, .sync⟩
    let again : Enrolment := ⟨"order", "money", none, .none, .async none none⟩
    let goods : Enrolment := ⟨"order", "goods", none, .all, .async none none⟩
    let calls := [money, parted, again, goods]
    empty.granted calls = [money.registration, goods.registration] ∧
      (empty.after calls).entries = [goods.registration, money.registration] ∧
      (∀ entry, (empty.after calls).lookup ⟨"order", "money"⟩ = some entry ↔
        entry ∈ empty.granted calls ∧ entry.key = ⟨"order", "money"⟩) ∧
      ∀ entry, ((empty.after [money, parted]).enrol again).1 ≠ .ok entry := by
  intro money parted again goods calls
  obtain ⟨answers, found, _⟩ := registrations_kept calls
  refine ⟨by decide, by decide, found "order" "money", fun entry accepted => ?_⟩
  obtain ⟨_, _, new⟩ := (answers [money, parted] again [goods] rfl).1.mp ⟨entry, accepted⟩
  exact new money.registration (by decide) rfl

end Registry

end TaskLeasing
