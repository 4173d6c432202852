import TaskLeasing.Encoding.Fields

namespace TaskLeasing

/-- An ordered list has every field of a list in which no two are of one name, and those it had before. -/
theorem lookupField_insertFields {α : Type} {fields : List (String × α)} (apart : (fields.map Prod.fst).Nodup)
    (done : List (String × α)) :
    (∀ field ∈ fields, lookupField field.1 (fields.foldl (fun done field => insertField field.1 field.2 done) done) =
      some field.2) ∧
    ∀ name ∉ fields.map Prod.fst,
      lookupField name (fields.foldl (fun done field => insertField field.1 field.2 done) done) = lookupField name done := by
  induction fields generalizing done with
  | nil => exact ⟨nofun, fun _ _ => rfl⟩
  | cons first rest ih =>
    rw [List.map_cons, List.nodup_cons] at apart
    obtain ⟨found, others⟩ := ih apart.2 (insertField first.1 first.2 done)
    refine ⟨fun field inside => ?_, fun name outside => ?_⟩
    · rcases List.mem_cons.mp inside with rfl | later
      · exact (others field.1 apart.1).trans (by rw [lookupField_insertField, if_pos rfl])
      · exact found field later
    · rw [List.map_cons, List.mem_cons, not_or] at outside
      exact (others name outside.2).trans (by rw [lookupField_insertField, if_neg (Ne.symm outside.1)])

/-- The fields of a record are found under their names. -/
theorem Json.record?_ofFields {fields : List (String × Json)} {names : List String} (named : fields.map Prod.fst = names)
    (apart : names.Nodup) : (Json.ofFields fields).record? names = some (fields.map fun field => some field.2) := by
  subst named
  have found := (lookupField_insertFields apart []).1
  rw [Json.ofFields, Json.record?, List.map_map]
  exact congrArg some (List.map_congr_left found)

/-- A field that is put behind all others stays there. -/
theorem insertField_last {α : Type} {fields : List (String × α)} {field : String × α}
    (last : ∀ earlier ∈ fields, earlier.1 < field.1) : insertField field.1 field.2 fields = fields ++ [field] := by
  induction fields with
  | nil => rfl
  | cons first rest ih =>
    have before := last first List.mem_cons_self
    rw [insertField, if_neg (String.lt_asymm before), if_neg (String.ne_of_lt before).symm, List.cons_append,
      ih fun earlier inside => last earlier (List.mem_cons_of_mem _ inside)]

/-- Fields in the order of their names stay as they are. -/
theorem orderFields_of_ordered {α : Type} {fields : List (String × α)} (ordered : FieldsOrdered fields) :
    orderFields fields = fields := by
  have general : ∀ fields done : List (String × α), FieldsOrdered (done ++ fields) →
      fields.foldl (fun done field => insertField field.1 field.2 done) done = done ++ fields := by
    intro fields
    induction fields with
    | nil => exact fun done _ => (List.append_nil done).symm
    | cons field rest ih =>
      intro done ordered
      have last : ∀ earlier ∈ done, earlier.1 < field.1 := fun earlier inside =>
        (List.pairwise_append.mp ordered).2.2 earlier inside field List.mem_cons_self
      rw [List.foldl_cons, insertField_last last, ih _ (by rw [List.append_assoc]; exact ordered), List.append_assoc,
        List.singleton_append]
  exact general fields [] ordered

theorem orderFields_pair {α : Type} {first second : String} (before : first < second) (one other : α) :
    orderFields [(second, other), (first, one)] = [(first, one), (second, other)] := by
  simp only [orderFields, List.foldl_cons, List.foldl_nil, insertField, if_pos before]

/-! Values that are read as what was written for them. -/

@[simp] theorem required_some {α : Type} (read : Json → Option α) (value : Json) :
    required read (some value) = read value := by
  rw [required, Option.bind_some]

@[simp] theorem Json.list?_list (items : List Json) : (Json.list items).list? = some items := rfl

@[simp] theorem Json.text?_text (text : String) : (Json.text text).text? = some text := rfl

@[simp] theorem Json.bool?_bool (value : Bool) : (Json.bool value).bool? = some value := rfl

@[simp] theorem Json.word64?_ofWord64 (word : UInt64) : (Json.ofWord64 word).word64? = some word := by
  have fits : fitsWord64 word.toNat := by
    have := word.toNat_lt
    simp only [fitsWord64, decide_eq_true_eq]
    omega
  simp [Json.word64?, Json.ofWord64, fits]

@[simp] theorem Json.word32?_ofWord32 (word : UInt32) : (Json.ofWord32 word).word32? = some word := by
  have fits : fitsWord32 word.toNat := by
    have := word.toNat_lt
    simp only [fitsWord32, decide_eq_true_eq]
    omega
  simp [Json.word32?, Json.ofWord32, fits]

/-- A value that may be missing is read back if it is read back where it is there, and not written as nothing. -/
theorem optional_ofOption {α : Type} {encode : α → Json} {read : Json → Option α} {value : Option α}
    (back : ∀ own ∈ value, read (encode own) = some own) (present : ∀ own, encode own ≠ .null) :
    optional read (some (.ofOption encode value)) = some value := by
  cases value with
  | none => rfl
  | some own =>
    have written : Json.ofOption encode (some own) = encode own := rfl
    rw [written, optional.eq_3 _ _ (present own), back own rfl, Option.map_some]

@[simp] theorem optional_ofText? (text : Option String) : optional Json.text? (some (.ofText? text)) = some text := by
  cases text <;> rfl

/-- A list is read back if each of its items is. -/
theorem mapM_map {α : Type} {encode : α → Json} {read : Json → Option α} (back : ∀ item, read (encode item) = some item)
    (items : List α) : (items.map encode).mapM read = some items := by
  induction items with
  | nil => rfl
  | cons item rest ih => simp [List.mapM_cons, back, ih]

@[simp] theorem Json.texts?_ofTexts (texts : List String) : (Json.ofTexts texts).texts? = some texts :=
  mapM_map text?_text texts

@[simp] theorem Variables.decode?_encode (vars : Variables) : Variables.decode? vars.encode = some vars :=
  congrArg some (Variables.ext_entries (orderFields_of_ordered vars.ordered))

/-- The whole seconds of a span and its nanoseconds beside them make up the span. -/
theorem Span.ofParts_seconds (d : Span) :
    Span.ofParts (UInt64.ofNat d.seconds) (UInt32.ofNat d.subsecond) = some d := by
  have seconds : (UInt64.ofNat d.seconds).toNat = d.seconds := UInt64.toNat_ofNat_of_lt' d.seconds_lt
  have subsecond : (UInt32.ofNat d.subsecond).toNat = d.subsecond :=
    UInt32.toNat_ofNat_of_lt' (Nat.lt_trans d.subsecond_lt (by decide))
  have total : d.seconds * 1000000000 + d.subsecond = d.nanos := Nat.div_add_mod' ..
  simp only [Span.ofParts, seconds, subsecond, total]
  exact dif_pos d.bounded

theorem Span.ofFields?_parts (d : Span) : Span.ofFields? [some (.whole d.seconds), some (.whole d.subsecond)] = some d := by
  have seconds : (Json.whole d.seconds).word64? = some (UInt64.ofNat d.seconds) := by
    have := d.seconds_lt
    rw [Json.word64?, if_pos (by simp only [fitsWord64, decide_eq_true_eq]; omega), Int.toNat_natCast]
  have subsecond : (Json.whole d.subsecond).word32? = some (UInt32.ofNat d.subsecond) := by
    have := d.subsecond_lt
    rw [Json.word32?, if_pos (by simp only [fitsWord32, decide_eq_true_eq]; omega), Int.toNat_natCast]
  rw [Span.ofFields?, required_some, seconds, Option.bind_eq_bind, Option.bind_some, required_some, subsecond,
    Option.bind_eq_bind, Option.bind_some, d.ofParts_seconds]

@[simp] theorem Span.decode?_encode (d : Span) : Span.decode? d.encode = some d := by
  have shape : d.encode = .object [("nanos", .whole d.subsecond), ("secs", .whole d.seconds)] := by
    rw [Span.encode, Json.ofFields, orderFields_pair (by decide)]
  have record : d.encode.record? ["secs", "nanos"] = some [some (.whole d.seconds), some (.whole d.subsecond)] :=
    Json.record?_ofFields rfl (by decide)
  rw [shape] at record ⊢
  rw [Span.decode?, if_pos (by simp), record, Option.bind_some, d.ofFields?_parts]

@[simp] theorem VariableScope.decode?_encode (scope : VariableScope) : VariableScope.decode? scope.encode = some scope := by
  cases scope with
  | all => rfl
  | none => rfl
  | names listed =>
    have ordered : FieldsOrdered [("mode", Json.text "names"), ("names", Json.ofTexts listed)] :=
      List.pairwise_pair.mpr (show "mode" < "names" by decide)
    rw [encode, Json.ofFields, orderFields_of_ordered ordered]
    simp [decode?, ofParts?, lookupField, Json.choice?]

end TaskLeasing
