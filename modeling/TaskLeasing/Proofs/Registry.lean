import TaskLeasing.Registry
import TaskLeasing.Proofs.Keyed

namespace TaskLeasing

/-- Where an entry is put makes no difference for what entries there are. -/
theorem insertRegistration_perm (entry : Registration) (entries : List Registration) :
    (insertRegistration entry entries).Perm (entry :: entries) := by
  induction entries with
  | nil => exact .refl _
  | cons head rest ih =>
    unfold insertRegistration
    split
    · exact .refl _
    · exact (ih.cons head).trans (.swap entry head rest)

namespace Registry

/-- No two registrations are under one key. -/
def Distinct (registry : Registry) : Prop := (registry.entries.map Registration.key).Nodup

theorem distinct_empty : empty.Distinct := List.nodup_nil

variable {registry after : Registry} {key : RegistrationKey} {entry : Registration} {definitionKey topic : String}
  {lockTimeout : Option Span} {vars : VariableScope} {contract : Contract}

theorem lookup_key (found : registry.lookup key = some entry) : entry.key = key := by
  simpa using List.find?_some found

/-- Each registration is found under its key. -/
theorem Distinct.lookup_mem (distinct : registry.Distinct) (member : entry ∈ registry.entries) :
    registry.lookup entry.key = some entry := find?_key distinct member

/-- A registration that was accepted is under a key that was free. -/
theorem register_ok
    (registered : registry.register definitionKey topic lockTimeout vars contract = .ok (entry, after)) :
    registry.lookup entry.key = none ∧ after.entries.Perm (entry :: registry.entries) := by
  unfold register at registered
  split at registered
  · cases registered
  · split at registered
    · cases registered
    · next key _ free =>
      cases registered
      refine ⟨?_, insertRegistration_perm _ _⟩
      simpa [contains] using free

/-- No registration is ever lost. -/
theorem register_grows
    (registered : registry.register definitionKey topic lockTimeout vars contract = .ok (entry, after)) :
    ∀ other ∈ registry.entries, other ∈ after.entries :=
  fun _ member => (register_ok registered).2.mem_iff.mpr (List.mem_cons_of_mem _ member)

theorem Distinct.register (distinct : registry.Distinct)
    (registered : registry.register definitionKey topic lockTimeout vars contract = .ok (entry, after)) :
    after.Distinct := by
  obtain ⟨free, entries⟩ := register_ok registered
  refine (entries.map Registration.key).nodup_iff.mpr (List.nodup_cons.mpr ⟨fun taken => ?_, distinct⟩)
  obtain ⟨other, member, same⟩ := List.mem_map.mp taken
  rw [← same, distinct.lookup_mem member] at free
  cases free

end Registry

end TaskLeasing
