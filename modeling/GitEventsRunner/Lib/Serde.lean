/-
# Derived JSON codecs

A library that derives codecs from the declaration of a record writes one field after
the other and reads them back by their names.  Attributes of a field say when it is
skipped, and its type says what it means that it is absent: an optional value is
none, any other one is an error.

A record is read back as it was written exactly if each of its fields is.  So what has
to be known about a record is what its attributes do to each field on its own.
-/

import GitEventsRunner.Lib.HashMap

namespace GitEventsRunner.Lib.Serde

/-- JSON values. -/
inductive Json
  | null
  | bool (b : Bool)
  | number (n : ℤ)
  | string (s : String)
  | array (items : List Json)
  | object (fields : List (String × Json))

/-- Why a value cannot be read. -/
inductive DeError
  | invalidType
  | unknownVariant (text : String)
  | missingField (name : String)
  | duplicateField (name : String)
  deriving DecidableEq, Repr

/-- A way to write values and to read them. -/
structure Codec (α : Type) where
  serialize : α → Json
  deserialize : Json → Except DeError α

/-- What was written is read back. -/
def Codec.RoundTrips {α : Type} (c : Codec α) (a : α) : Prop :=
  c.deserialize (c.serialize a) = .ok a

/-! ## Values -/

/-- Texts are JSON strings. -/
def string : Codec String where
  serialize s := .string s
  deserialize
    | .string s => .ok s
    | _ => .error .invalidType

theorem roundTrips_string (s : String) : string.RoundTrips s := rfl

/-- Without a value there is `null`. -/
def option {α : Type} (c : Codec α) : Codec (Option α) where
  serialize
    | none => .null
    | some a => c.serialize a
  deserialize
    | .null => .ok none
    | json => some <$> c.deserialize json

theorem deserialize_option {α : Type} {c : Codec α} {json : Json} (h : json ≠ .null) :
    (option c).deserialize json = some <$> c.deserialize json := by
  cases json with
  | null => exact absurd rfl h
  | bool | number | string | array | object => rfl

/-- An optional value is read back if no value is written as `null`. -/
theorem roundTrips_option {α : Type} {c : Codec α} {a : Option α}
    (h : ∀ v, a = some v → c.RoundTrips v) (hnull : ∀ v, c.serialize v ≠ .null) :
    (option c).RoundTrips a := by
  cases a with
  | none => rfl
  | some v =>
      have hvalue : c.deserialize (c.serialize v) = .ok v := h v rfl
      show (option c).deserialize (c.serialize v) = .ok (some v)
      rw [deserialize_option (hnull v), hvalue]
      rfl

/-- The fields of an object.  (A derived `Deserialize` accepts a sequence of the fields as
well, which no `Serialize` writes; here it is refused.) -/
def Json.asObject : Json → Except DeError (List (String × Json))
  | .object fields => .ok fields
  | _ => .error .invalidType

section Maps

variable {V : Type}

/-- Read the entries of a map, one after the other. -/
def readEntries (c : Codec V) : List (String × Json) → Except DeError (List (String × V))
  | [] => .ok []
  | (key, json) :: rest => do
      let value ← c.deserialize json
      let entries ← readEntries c rest
      pure ((key, value) :: entries)

/-- Maps are objects, written in the order in which the map is iterated. -/
def hashMap (order : (m : HashMap String V) → m.Listing) (c : Codec V) :
    Codec (HashMap String V) where
  serialize m := .object ((order m).entries.map fun e => (e.1, c.serialize e.2))
  deserialize json := do
    let fields ← json.asObject
    let entries ← readEntries c fields
    pure (HashMap.ofList entries)

theorem readEntries_map {c : Codec V} {entries : List (String × V)}
    (h : ∀ e ∈ entries, c.RoundTrips e.2) :
    readEntries c (entries.map fun e => (e.1, c.serialize e.2)) = .ok entries := by
  induction entries with
  | nil => rfl
  | cons e entries ih =>
      rw [List.forall_mem_cons] at h
      have hvalue : c.deserialize (c.serialize e.2) = .ok e.2 := h.1
      rw [List.map_cons, readEntries, hvalue, ih h.2]
      rfl

/-- A map is read back if its values are. -/
theorem roundTrips_hashMap (order : (m : HashMap String V) → m.Listing) {c : Codec V}
    {m : HashMap String V} (h : ∀ k v, m.get k = some v → c.RoundTrips v) :
    (hashMap order c).RoundTrips m := by
  have hentries : ∀ e ∈ (order m).entries, c.RoundTrips e.2 := by
    intro e he
    exact h e.1 e.2 (((order m).mem_iff e.1 e.2).mp he)
  show (do
    let entries ← readEntries c ((order m).entries.map fun e => (e.1, c.serialize e.2))
    pure (HashMap.ofList entries)) = Except.ok m
  rw [readEntries_map hentries]
  exact congrArg Except.ok (order m).ofList_entries

end Maps

/-! ## Fields -/

/-- A field of a record: it may be skipped and it may be absent. -/
structure Field (α : Type) where
  name : String
  serialize : α → Option Json
  deserialize : Option Json → Except DeError α

namespace Field

variable {α : Type}

/-- A field that has to be there. -/
def required (name : String) (c : Codec α) : Field α where
  name := name
  serialize a := some (c.serialize a)
  deserialize
    | some json => c.deserialize json
    | none => .error (.missingField name)

/-- A field with an optional value, which is none if the field is absent. -/
def optional (name : String) (c : Codec α) : Field (Option α) where
  name := name
  serialize a := some ((option c).serialize a)
  deserialize
    | some json => (option c).deserialize json
    | none => .ok none

/-- `skip_serializing_if` -/
def skipIf (p : α → Bool) (f : Field α) : Field α where
  name := f.name
  serialize a := if p a then none else f.serialize a
  deserialize := f.deserialize

/-- What was written, or not, is read back. -/
def RoundTrips (f : Field α) (a : α) : Prop := f.deserialize (f.serialize a) = .ok a

/-- A field is read back as if it were absent where it is skipped. -/
theorem roundTrips_skipIf {p : α → Bool} {f : Field α} {a : α} :
    (f.skipIf p).RoundTrips a ↔
      if p a then f.deserialize none = .ok a else f.RoundTrips a := by
  show f.deserialize (if p a then none else f.serialize a) = .ok a ↔ _
  by_cases h : p a = true
  · rw [if_pos h, if_pos h]
  · rw [if_neg h, if_neg h]
    rfl

/-- A field that has to be there is read back only if it was not skipped. -/
theorem roundTrips_skipIf_required {p : α → Bool} {name : String} {c : Codec α} {a : α} :
    ((required name c).skipIf p).RoundTrips a ↔ p a = false ∧ c.RoundTrips a := by
  have hmissing : (required name c).deserialize none ≠ .ok a := by
    intro h
    cases h
  rw [roundTrips_skipIf]
  cases p a with
  | false => exact (and_iff_right rfl).symm
  | true => simp [hmissing]

/-- A value that is none may be skipped. -/
theorem roundTrips_skipIf_optional {name : String} {c : Codec α} {a : Option α}
    (h : ∀ v, a = some v → c.RoundTrips v) (hnull : ∀ v, c.serialize v ≠ .null) :
    ((optional name c).skipIf Option.isNone).RoundTrips a := by
  rw [roundTrips_skipIf]
  cases a with
  | none => rfl
  | some v => exact roundTrips_option h hnull

/-- The name of a field and what is written under it. -/
def write (f : Field α) (a : α) : String × Option Json := (f.name, f.serialize a)

/-- Read a field of an object. -/
def read (f : Field α) (fields : List (String × Json)) : Except DeError α :=
  f.deserialize (fields.lookup f.name)

end Field

/-! ## Records -/

/-- The fields of a record that were not skipped. -/
def present (values : List (String × Option Json)) : List (String × Json) :=
  values.filterMap fun value => value.2.map fun json => (value.1, json)

/-- A record is an object. -/
def record (values : List (String × Option Json)) : Json := .object (present values)

/-- None of the names is the name of two fields. -/
def checkUnique (names : List String) (fields : List (String × Json)) : Except DeError Unit :=
  match names.find? fun name => 1 < (fields.map Prod.fst).count name with
  | some name => .error (.duplicateField name)
  | none => .ok ()

section Records

variable {values : List (String × Option Json)} {names : List String}

theorem map_fst_present_sublist :
    ((present values).map Prod.fst).Sublist (values.map Prod.fst) := by
  induction values with
  | nil => exact List.Sublist.refl _
  | cons value values ih =>
      obtain ⟨name, json⟩ := value
      cases json with
      | none => exact ih.cons name
      | some json => exact ih.cons_cons name

/-- Under a name there is what was written, or nothing if it was skipped. -/
theorem lookup_present (hnodup : (values.map Prod.fst).Nodup) {name : String}
    {json : Option Json} (h : (name, json) ∈ values) : (present values).lookup name = json := by
  induction values with
  | nil => cases h
  | cons value values ih =>
      rw [List.map_cons, List.nodup_cons] at hnodup
      rcases List.mem_cons.mp h with rfl | hrest
      · cases json with
        | none =>
            rw [List.lookup_eq_none_iff]
            intro field hfield
            have hname : field.1 ∈ values.map Prod.fst :=
              map_fst_present_sublist.subset (List.mem_map_of_mem hfield)
            exact bne_iff_ne.mpr fun heq => hnodup.1 (heq ▸ hname)
        | some json => exact List.lookup_cons_self
      · have hne : name ≠ value.1 := by
          rintro rfl
          exact hnodup.1 (List.mem_map.mpr ⟨_, hrest, rfl⟩)
        obtain ⟨first, written⟩ := value
        cases written with
        | none => exact ih hnodup.2 hrest
        | some written =>
            show List.lookup name ((first, written) :: present values) = json
            rw [List.lookup_cons, beq_false_of_ne hne]
            exact ih hnodup.2 hrest

/-- Reading a field of a record is reading what is under its name. -/
theorem read_present (hnodup : (values.map Prod.fst).Nodup) {α : Type} {f : Field α}
    {json : Option Json} (h : (f.name, json) ∈ values) :
    f.read (present values) = f.deserialize json := by
  rw [Field.read, lookup_present hnodup h]

/-- A field that was written is read as what it says on its own. -/
theorem read_present_eq_ok_iff (hnodup : (values.map Prod.fst).Nodup) {α : Type} {f : Field α}
    {a : α} (h : f.write a ∈ values) : f.read (present values) = .ok a ↔ f.RoundTrips a := by
  rw [read_present hnodup h]
  rfl

/-- No field of a record is written twice. -/
theorem checkUnique_present (hnodup : (values.map Prod.fst).Nodup) (names : List String) :
    checkUnique names (present values) = .ok () := by
  have hnone : (names.find? fun name => 1 < ((present values).map Prod.fst).count name) =
      none := by
    rw [List.find?_eq_none]
    intro name _
    have hcount := List.nodup_iff_count_le_one.mp (hnodup.sublist map_fst_present_sublist) name
    simpa using hcount
  rw [checkUnique, hnone]

end Records

end GitEventsRunner.Lib.Serde
