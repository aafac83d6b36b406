/-
# Documents over defaults

A configuration document need not say everything: a field that is absent keeps its
default, and a name that is not a field is an error.  Such a record is described by the
list of its fields.  It is read by visiting the entries of the document one after the
other, and what no entry has assigned is filled in at the end.

Which entries there are, and what a value is read as, is up to the format of the
document.  Of the format a record only needs that it hands over the entries of a part of
a document to the record with the given names.

A document is read as a record exactly if no name occurs twice, every entry is one of
the fields and says what the record has there, and the record has the defaults
everywhere else.  Records are values again, so the same holds from level to level.
-/

import Mathlib.Logic.Equiv.Defs
import Mathlib.Data.List.Nodup
import Mathlib.Tactic.Tauto

namespace GitEventsRunner.Lib.Overlay

/-- A format of documents: the entries that it hands over to the record with the given
names. -/
structure Format (Node Error : Type) where
  entries : List String → Node → Except Error (List (String × Node))

/-- Why a document is refused. -/
inductive ReadError (Error : Type)
  | format (error : Error)
  | unknownField (name : String)
  | duplicateField (name : String)
  deriving DecidableEq, Repr

variable {Node Error : Type}

/-! ## What a document settles -/

/-- A step into a document: from the record with these names to one of its fields. -/
structure Step where
  names : List String
  name : String
  deriving DecidableEq, Repr

/-- The part of a document behind a path. -/
def Format.follow (format : Format Node Error) : List Step → Node → Option Node
  | [], node => some node
  | step :: path, node =>
      match format.entries step.names node with
      | .ok entries => (entries.lookup step.name).bind (format.follow path)
      | .error _ => none

/-- Something a document can settle, or leave at its default. -/
structure Setting (Node Error R : Type) where
  path : List Step
  Val : Type
  read : Node → Except Error Val
  get : R → Val
  default : Val

namespace Setting

variable {R S : Type} {format : Format Node Error}

/-- The record has what the document says, or the default if it says nothing. -/
def Holds (format : Format Node Error) (setting : Setting Node Error R) (document : Node)
    (r : R) : Prop :=
  match format.follow setting.path document with
  | some node => setting.read node = .ok (setting.get r)
  | none => setting.get r = setting.default

/-- The setting in a document that has it behind a step. -/
def under (step : Step) (setting : Setting Node Error R) : Setting Node Error R :=
  { setting with path := step :: setting.path }

/-- The setting of a part of a record. -/
def comap (f : S → R) (setting : Setting Node Error R) : Setting Node Error S :=
  { setting with get := fun s => setting.get (f s) }

@[simp]
theorem holds_comap {f : S → R} {setting : Setting Node Error R} {document : Node} {s : S} :
    (setting.comap f).Holds format document s ↔ setting.Holds format document (f s) := Iff.rfl

theorem holds_under_of_lookup {names : List String} {name : String}
    {setting : Setting Node Error R} {document node : Node} {entries : List (String × Node)}
    (hentries : format.entries names document = .ok entries)
    (h : entries.lookup name = some node) (r : R) :
    (setting.under ⟨names, name⟩).Holds format document r ↔ setting.Holds format node r := by
  simp [Holds, under, Format.follow, hentries, h]

theorem holds_under_of_lookup_none {names : List String} {name : String}
    {setting : Setting Node Error R} {document : Node} {entries : List (String × Node)}
    (hentries : format.entries names document = .ok entries)
    (h : entries.lookup name = none) (r : R) :
    (setting.under ⟨names, name⟩).Holds format document r ↔ setting.get r = setting.default := by
  simp [Holds, under, Format.follow, hentries, h]

end Setting

/-- A part of a document that is a record: where it is, and the names it may use. -/
structure Section where
  path : List Step
  names : List String
  deriving DecidableEq, Repr

namespace Section

variable {format : Format Node Error}

/-- If the section is there, it is handed over with its own names, each once. -/
def Ok (format : Format Node Error) (part : Section) (document : Node) : Prop :=
  ∀ node, format.follow part.path document = some node →
    ∃ entries, format.entries part.names node = .ok entries ∧
      (entries.map Prod.fst).Nodup ∧ ∀ e ∈ entries, e.1 ∈ part.names

/-- The section in a document that has it behind a step. -/
def under (step : Step) (part : Section) : Section := { part with path := step :: part.path }

theorem ok_under_of_lookup {names : List String} {name : String} {part : Section}
    {document node : Node} {entries : List (String × Node)}
    (hentries : format.entries names document = .ok entries)
    (h : entries.lookup name = some node) :
    (part.under ⟨names, name⟩).Ok format document ↔ part.Ok format node := by
  simp [Ok, under, Format.follow, hentries, h]

theorem ok_under_of_lookup_none {names : List String} {name : String} {part : Section}
    {document : Node} {entries : List (String × Node)}
    (hentries : format.entries names document = .ok entries)
    (h : entries.lookup name = none) : (part.under ⟨names, name⟩).Ok format document := by
  intro node hnode
  simp [under, Format.follow, hentries, h] at hnode

end Section

/-- A document is read as the value its settings say. -/
def Meets {R : Type} (format : Format Node Error) (sections : List Section)
    (settings : List (Setting Node Error R)) (document : Node) (r : R) : Prop :=
  (∀ part ∈ sections, part.Ok format document) ∧
    ∀ setting ∈ settings, setting.Holds format document r

/-! ## Records -/

/-- A field: its name, how its value is read, and its default.  A field that is a record
itself has sections and settings of its own. -/
structure Decl (format : Format Node Error) where
  name : String
  Val : Type
  read : Node → Except (ReadError Error) Val
  default : Val
  sections : List Section
  settings : List (Setting Node Error Val)
  meets : ∀ node v, read node = .ok v ↔ Meets format sections settings node v
  defaults : ∀ v, v = default ↔ ∀ setting ∈ settings, setting.get v = setting.default

namespace Decl

variable {format : Format Node Error}

/-- The setting of a field that is not a record. -/
def leafSetting {α : Type} (read : Node → Except Error α) (default : α) :
    Setting Node Error α where
  path := []
  Val := α
  read := read
  get a := a
  default := default

theorem meets_leaf {α : Type} (read : Node → Except Error α) (default : α) (node : Node) (a : α) :
    (read node).mapError ReadError.format = .ok a ↔
      Meets format [] [leafSetting read default] node a := by
  have hread : (read node).mapError ReadError.format = .ok a ↔ read node = .ok a := by
    cases read node <;> simp [Except.mapError]
  rw [hread]
  simp [Meets, leafSetting, Setting.Holds, Format.follow]

/-- A field that is not a record. -/
def leaf {α : Type} (name : String) (read : Node → Except Error α) (default : α) :
    Decl format where
  name := name
  Val := α
  read node := (read node).mapError .format
  default := default
  sections := []
  settings := [leafSetting read default]
  meets := meets_leaf read default
  defaults a := by
    simp only [List.mem_singleton, forall_eq]
    exact Iff.rfl

end Decl

variable {format : Format Node Error}

/-- The values of the fields. -/
abbrev Values : List (Decl format) → Type
  | [] => Unit
  | d :: ds => d.Val × Values ds

/-- The values of some of the fields. -/
abbrev Partial : List (Decl format) → Type
  | [] => Unit
  | d :: ds => Option d.Val × Partial ds

/-- No field has a value yet. -/
def nothing : (ds : List (Decl format)) → Partial ds
  | [] => ()
  | _ :: ds => (none, nothing ds)

/-- A field gets its value, once. -/
def Decl.assign (d : Decl format) (node : Node) :
    Option d.Val → Except (ReadError Error) (Option d.Val)
  | some _ => .error (.duplicateField d.name)
  | none => (d.read node).map some

/-- An entry of the document is visited. -/
def assign : (ds : List (Decl format)) → String → Node → Partial ds →
    Except (ReadError Error) (Partial ds)
  | [], name, _, _ => .error (.unknownField name)
  | d :: ds, name, node, (slot, rest) =>
      if name = d.name then (d.assign node slot).map fun slot => (slot, rest)
      else (assign ds name node rest).map fun rest => (slot, rest)

/-- The entries of the document, one after the other. -/
def visit (ds : List (Decl format)) : List (String × Node) → Partial ds →
    Except (ReadError Error) (Partial ds)
  | [], record => .ok record
  | (name, node) :: entries, record => do
      let record ← assign ds name node record
      visit ds entries record

/-- What has no value gets its default. -/
def finish : (ds : List (Decl format)) → Partial ds → Values ds
  | [], _ => ()
  | d :: ds, (slot, rest) => (slot.getD d.default, finish ds rest)

/-- Read a document. -/
def readRecord (ds : List (Decl format)) (node : Node) : Except (ReadError Error) (Values ds) :=
  match format.entries (ds.map Decl.name) node with
  | .ok entries => (visit ds entries (nothing ds)).map (finish ds)
  | .error error => .error (.format error)

/-! ## What a document says -/

/-- The field of this name is read as the value it has in the record. -/
def Says : (ds : List (Decl format)) → Values ds → String → Node → Prop
  | [], _, _, _ => False
  | d :: ds, (value, rest), name, node =>
      if name = d.name then d.read node = .ok value else Says ds rest name node

/-- Every field with another name has its default. -/
def Defaults : (ds : List (Decl format)) → Values ds → List String → Prop
  | [], _, _ => True
  | d :: ds, (value, rest), names => (d.name ∉ names → value = d.default) ∧ Defaults ds rest names

/-- Exactly the fields of these names have a value. -/
def Fits : (ds : List (Decl format)) → Partial ds → List String → Prop
  | [], _, _ => True
  | d :: ds, (slot, rest), names => (slot.isSome = true ↔ d.name ∈ names) ∧ Fits ds rest names

/-- The values there are are those of the record. -/
def Agrees : (ds : List (Decl format)) → Partial ds → Values ds → Prop
  | [], _, _ => True
  | _ :: ds, (slot, rest), (value, others) =>
      (∀ v, slot = some v → v = value) ∧ Agrees ds rest others

section Reading

variable {ds : List (Decl format)} {name : String} {node : Node} {names : List String}

theorem fits_nothing (ds : List (Decl format)) : Fits ds (nothing ds) [] := by
  induction ds with
  | nil => trivial
  | cons d ds ih => exact ⟨by simp, ih⟩

theorem agrees_nothing (ds : List (Decl format)) (r : Values ds) : Agrees ds (nothing ds) r := by
  induction ds with
  | nil => trivial
  | cons d ds ih => exact ⟨by simp, ih r.2⟩

/-- A further name that is none of the fields does not matter. -/
theorem Fits.cons_of_not_mem {p : Partial ds} (h : Fits ds p names)
    (hname : name ∉ ds.map Decl.name) : Fits ds p (name :: names) := by
  induction ds with
  | nil => trivial
  | cons d ds ih =>
      rw [List.map_cons, List.mem_cons, not_or] at hname
      refine ⟨h.1.trans ?_, ih h.2 hname.2⟩
      rw [List.mem_cons]
      exact (or_iff_right (Ne.symm hname.1)).symm

/-- What visiting an entry does. -/
theorem assign_spec (hnodup : (ds.map Decl.name).Nodup) {p q : Partial ds}
    (hp : Fits ds p names) (h : assign ds name node p = .ok q) :
    name ∉ names ∧ Fits ds q (name :: names) ∧
      ∀ r, Agrees ds q r ↔ Agrees ds p r ∧ Says ds r name node := by
  induction ds with
  | nil => cases h
  | cons d ds ih =>
      obtain ⟨slot, rest⟩ := p
      rw [List.map_cons, List.nodup_cons] at hnodup
      rw [assign] at h
      by_cases hname : name = d.name
      · subst hname
        rw [if_pos rfl] at h
        cases slot with
        | some v => cases h
        | none =>
            rw [Decl.assign] at h
            cases hread : d.read node with
            | error error =>
                rw [hread] at h
                cases h
            | ok value =>
                rw [hread] at h
                obtain rfl := Except.ok.inj h
                refine ⟨fun hmem => ?_, ⟨by simp, hp.2.cons_of_not_mem hnodup.1⟩, ?_⟩
                · cases hp.1.mpr hmem
                · rintro ⟨v, others⟩
                  have hspoken : Says (d :: ds) (v, others) d.name node ↔ value = v := by
                    rw [Says, if_pos rfl, hread, Except.ok.injEq]
                  rw [hspoken]
                  constructor
                  · exact fun hq => ⟨⟨nofun, hq.2⟩, hq.1 value rfl⟩
                  · rintro ⟨hagrees, rfl⟩
                    exact ⟨fun w hw => (Option.some.inj hw).symm, hagrees.2⟩
      · rw [if_neg hname] at h
        cases hassign : assign ds name node rest with
        | error error =>
            rw [hassign] at h
            cases h
        | ok rest' =>
            rw [hassign] at h
            obtain rfl := Except.ok.inj h
            obtain ⟨hnot, hfits, hagrees⟩ := ih hnodup.2 hp.2 hassign
            refine ⟨hnot, ⟨hp.1.trans ?_, hfits⟩, ?_⟩
            · rw [List.mem_cons]
              exact (or_iff_right (Ne.symm hname)).symm
            · rintro ⟨v, others⟩
              rw [Says, if_neg hname, Agrees, Agrees, hagrees others, and_assoc]

/-- An entry that says what some record has, for a field without a value, is
accepted. -/
theorem assign_complete {p : Partial ds} {r : Values ds} (hp : Fits ds p names)
    (hnot : name ∉ names) (h : Says ds r name node) : ∃ q, assign ds name node p = .ok q := by
  induction ds with
  | nil => cases h
  | cons d ds ih =>
      obtain ⟨slot, rest⟩ := p
      obtain ⟨value, others⟩ := r
      rw [assign]
      by_cases hname : name = d.name
      · subst hname
        rw [Says, if_pos rfl] at h
        have hslot : slot = none := by
          rw [← Option.not_isSome_iff_eq_none, hp.1]
          exact hnot
        rw [if_pos rfl, hslot, Decl.assign, h]
        exact ⟨_, rfl⟩
      · rw [Says, if_neg hname] at h
        obtain ⟨q, hq⟩ := ih hp.2 h
        rw [if_neg hname, hq]
        exact ⟨_, rfl⟩

/-- What visiting a document does: it sees every name once. -/
theorem visit_spec (hnodup : (ds.map Decl.name).Nodup) {document : List (String × Node)}
    {p q : Partial ds} (hp : Fits ds p names) (hnames : names.Nodup)
    (h : visit ds document p = .ok q) :
    ((document.map Prod.fst).reverse ++ names).Nodup ∧
      Fits ds q ((document.map Prod.fst).reverse ++ names) ∧
      ∀ r, Agrees ds q r ↔ Agrees ds p r ∧ ∀ e ∈ document, Says ds r e.1 e.2 := by
  induction document generalizing p names with
  | nil =>
      obtain rfl := Except.ok.inj h
      exact ⟨hnames, hp, by simp⟩
  | cons e document ih =>
      obtain ⟨name, node⟩ := e
      rw [visit] at h
      cases hassign : assign ds name node p with
      | error error =>
          rw [hassign] at h
          cases h
      | ok middle =>
          rw [hassign] at h
          obtain ⟨hnot, hfits, hagrees⟩ := assign_spec hnodup hp hassign
          obtain ⟨hall, hq, hspoken⟩ := ih hfits (List.nodup_cons.mpr ⟨hnot, hnames⟩) h
          rw [List.map_cons, List.reverse_cons, List.append_assoc, List.singleton_append]
          refine ⟨hall, hq, fun r => ?_⟩
          rw [hspoken r, hagrees r, List.forall_mem_cons, and_assoc]

/-- A document that says what some record has, under names that were not seen yet, is
accepted. -/
theorem visit_complete (hnodup : (ds.map Decl.name).Nodup) {document : List (String × Node)}
    {p : Partial ds} {r : Values ds} (hp : Fits ds p names)
    (hnames : ((document.map Prod.fst).reverse ++ names).Nodup)
    (h : ∀ e ∈ document, Says ds r e.1 e.2) : ∃ q, visit ds document p = .ok q := by
  induction document generalizing p names with
  | nil => exact ⟨p, rfl⟩
  | cons e document ih =>
      obtain ⟨name, node⟩ := e
      rw [List.forall_mem_cons] at h
      rw [List.map_cons, List.reverse_cons, List.append_assoc, List.singleton_append] at hnames
      have hnot : name ∉ names := (List.nodup_cons.mp hnames.of_append_right).1
      obtain ⟨middle, hmiddle⟩ := assign_complete hp hnot h.1
      obtain ⟨q, hq⟩ := ih (assign_spec hnodup hp hmiddle).2.1 hnames h.2
      refine ⟨q, ?_⟩
      rw [visit, hmiddle]
      exact hq

/-- The defaults fill in what has no value. -/
theorem finish_eq_iff {p : Partial ds} (hp : Fits ds p names) (r : Values ds) :
    finish ds p = r ↔ Agrees ds p r ∧ Defaults ds r names := by
  induction ds with
  | nil => exact ⟨fun _ => ⟨trivial, trivial⟩, fun _ => rfl⟩
  | cons d ds ih =>
      obtain ⟨slot, rest⟩ := p
      obtain ⟨value, others⟩ := r
      have hslot : slot.getD d.default = value ↔
          (∀ v, slot = some v → v = value) ∧ (d.name ∉ names → value = d.default) := by
        cases slot with
        | none =>
            have hname : d.name ∉ names := fun hmem => by simpa using hp.1.mpr hmem
            simp [hname, eq_comm]
        | some v =>
            have hname : d.name ∈ names := hp.1.mp rfl
            simp [hname]
      rw [finish, Prod.mk.injEq, hslot, ih hp.2, Agrees, Defaults]
      tauto

/-- A document is read as a record exactly if no name occurs twice, every entry says
what the record has, and the record has the defaults everywhere else. -/
theorem readRecord_eq_ok_iff (hnodup : (ds.map Decl.name).Nodup) (node : Node) (r : Values ds) :
    readRecord ds node = .ok r ↔ ∃ document,
      format.entries (ds.map Decl.name) node = .ok document ∧
      (document.map Prod.fst).Nodup ∧ (∀ e ∈ document, Says ds r e.1 e.2) ∧
      Defaults ds r (document.map Prod.fst) := by
  cases hentries : format.entries (ds.map Decl.name) node with
  | error error => simp [readRecord, hentries]
  | ok document =>
      have hdefaults : Defaults ds r ((document.map Prod.fst).reverse ++ []) ↔
          Defaults ds r (document.map Prod.fst) := by
        rw [List.append_nil]
        clear hnodup hentries
        induction ds with
        | nil => exact Iff.rfl
        | cons d ds ih => exact and_congr (by rw [List.mem_reverse]) (ih r.2)
      have hread : readRecord ds node = (visit ds document (nothing ds)).map (finish ds) := by
        rw [readRecord, hentries]
      simp only [Except.ok.injEq, exists_eq_left', hread]
      constructor
      · intro h
        cases hvisit : visit ds document (nothing ds) with
        | error error =>
            rw [hvisit] at h
            cases h
        | ok q =>
            rw [hvisit] at h
            obtain ⟨hall, hfits, hspoken⟩ :=
              visit_spec hnodup (fits_nothing ds) List.nodup_nil hvisit
            have hagrees := (finish_eq_iff hfits r).mp (Except.ok.inj h)
            rw [List.append_nil, List.nodup_reverse] at hall
            exact ⟨hall, ((hspoken r).mp hagrees.1).2, hdefaults.mp hagrees.2⟩
      · rintro ⟨hall, hspoken, hrest⟩
        have hnames : ((document.map Prod.fst).reverse ++ []).Nodup := by
          rwa [List.append_nil, List.nodup_reverse]
        obtain ⟨q, hq⟩ := visit_complete hnodup (fits_nothing ds) hnames hspoken
        obtain ⟨-, hfits, hagrees⟩ := visit_spec hnodup (fits_nothing ds) List.nodup_nil hq
        have hfinish : finish ds q = r := (finish_eq_iff hfits r).mpr
          ⟨(hagrees r).mpr ⟨agrees_nothing ds r, hspoken⟩, hdefaults.mpr hrest⟩
        rw [hq, ← hfinish]
        rfl

/-- What a document has under the name of a field is the value of the field; what it
does not have is the default. -/
def Slots : (ds : List (Decl format)) → Values ds → List (String × Node) → Prop
  | [], _, _ => True
  | d :: ds, (value, rest), document =>
      (match document.lookup d.name with
        | some node => d.read node = .ok value
        | none => value = d.default) ∧ Slots ds rest document

/-- Under different names, the first entry of a name is the only one. -/
theorem mem_iff_lookup {document : List (String × Node)} (h : (document.map Prod.fst).Nodup)
    {name : String} {node : Node} : (name, node) ∈ document ↔ document.lookup name = some node := by
  induction document with
  | nil => simp
  | cons e document ih =>
      obtain ⟨key, value⟩ := e
      rw [List.map_cons, List.nodup_cons] at h
      rw [List.mem_cons, List.lookup_cons]
      by_cases hkey : name = key
      · subst hkey
        have hnot : (name, node) ∉ document := fun hmem =>
          h.1 (List.mem_map.mpr ⟨_, hmem, rfl⟩)
        simp [hnot, eq_comm]
      · simp [hkey, beq_false_of_ne hkey, ih h.2]

theorem lookup_eq_none_iff_names {document : List (String × Node)} {name : String} :
    document.lookup name = none ↔ name ∉ document.map Prod.fst := by
  rw [List.lookup_eq_none_iff, List.mem_map]
  constructor
  · rintro h ⟨e, he, rfl⟩
    simpa using h e he
  · intro h e he
    exact bne_iff_ne.mpr fun heq => h ⟨e, he, heq.symm⟩

/-- What a name says that is none of the fields. -/
theorem not_says_of_not_mem (hname : name ∉ ds.map Decl.name) (r : Values ds) :
    ¬ Says ds r name node := by
  induction ds with
  | nil => exact id
  | cons d ds ih =>
      rw [List.map_cons, List.mem_cons, not_or] at hname
      rw [Says, if_neg hname.1]
      exact ih hname.2 r.2

/-- Entry by entry, or field by field. -/
theorem slots_iff (hnodup : (ds.map Decl.name).Nodup) {document : List (String × Node)}
    (hdocument : (document.map Prod.fst).Nodup) (r : Values ds) :
    ((∀ e ∈ document, e.1 ∈ ds.map Decl.name → Says ds r e.1 e.2) ∧
      Defaults ds r (document.map Prod.fst)) ↔ Slots ds r document := by
  induction ds with
  | nil => simp [Defaults, Slots]
  | cons d ds ih =>
      obtain ⟨value, rest⟩ := r
      rw [List.map_cons, List.nodup_cons] at hnodup
      rw [Slots, ← ih hnodup.2 rest, Defaults]
      have hslot : ((∀ node, (d.name, node) ∈ document → d.read node = .ok value) ∧
          (d.name ∉ document.map Prod.fst → value = d.default)) ↔
          (match document.lookup d.name with
            | some node => d.read node = .ok value
            | none => value = d.default) := by
        simp only [mem_iff_lookup hdocument, ← lookup_eq_none_iff_names]
        cases document.lookup d.name with
        | none => simp
        | some node => simp
      have hothers : (∀ e ∈ document, e.1 ∈ (d :: ds).map Decl.name →
          Says (d :: ds) (value, rest) e.1 e.2) ↔
          (∀ node, (d.name, node) ∈ document → d.read node = .ok value) ∧
            ∀ e ∈ document, e.1 ∈ ds.map Decl.name → Says ds rest e.1 e.2 := by
        constructor
        · intro h
          constructor
          · intro node hmem
            have hspoken := h _ hmem List.mem_cons_self
            rwa [Says, if_pos rfl] at hspoken
          · intro e he hmem
            have hne : e.1 ≠ d.name := fun heq => hnodup.1 (heq ▸ hmem)
            have hspoken := h e he (List.mem_cons_of_mem _ hmem)
            rwa [Says, if_neg hne] at hspoken
        · rintro ⟨hfirst, hrest⟩ ⟨key, node⟩ he hmem
          rw [Says]
          by_cases hkey : key = d.name
          · subst hkey
            rw [if_pos rfl]
            exact hfirst node he
          · rw [if_neg hkey]
            exact hrest _ he ((List.mem_cons.mp hmem).resolve_left hkey)
      rw [← hslot, hothers]
      tauto

/-- The settings of a record with these names are those of its fields. -/
def settingsOf (names : List String) :
    (ds : List (Decl format)) → List (Setting Node Error (Values ds))
  | [] => []
  | d :: ds => (d.settings.map fun setting => (setting.under ⟨names, d.name⟩).comap Prod.fst) ++
      (settingsOf names ds).map fun setting => setting.comap Prod.snd

/-- The sections of the fields of a record with these names. -/
def fieldSections (names : List String) (ds : List (Decl format)) : List Section :=
  ds.flatMap fun d => d.sections.map (Section.under ⟨names, d.name⟩)

/-- The sections of a record are the record itself and those of its fields. -/
def sectionsOf (ds : List (Decl format)) : List Section :=
  ⟨[], ds.map Decl.name⟩ :: fieldSections (ds.map Decl.name) ds

/-- Field by field, or setting by setting. -/
theorem slots_iff_settings {document : List (String × Node)}
    (hentries : format.entries names node = .ok document) (r : Values ds) :
    Slots ds r document ↔
      (∀ part ∈ fieldSections names ds, part.Ok format node) ∧
      ∀ setting ∈ settingsOf names ds, setting.Holds format node r := by
  induction ds with
  | nil => simp [Slots, settingsOf, fieldSections]
  | cons d ds ih =>
      obtain ⟨value, rest⟩ := r
      rw [Slots, ih rest]
      simp only [fieldSections, List.flatMap_cons, List.forall_mem_append, settingsOf,
        List.forall_mem_map, Setting.holds_comap]
      cases hlookup : document.lookup d.name with
      | some found =>
          simp only [Section.ok_under_of_lookup hentries hlookup,
            Setting.holds_under_of_lookup hentries hlookup, d.meets found value, Meets]
          tauto
      | none =>
          simp only [Section.ok_under_of_lookup_none hentries hlookup, implies_true, true_and,
            Setting.holds_under_of_lookup_none hentries hlookup, d.defaults value]
          tauto

/-- A document is read as a record exactly if its sections use their own names and every
setting holds. -/
theorem readRecord_iff_meets (hnodup : (ds.map Decl.name).Nodup) (node : Node) (r : Values ds) :
    readRecord ds node = .ok r ↔
      Meets format (sectionsOf ds) (settingsOf (ds.map Decl.name) ds) node r := by
  rw [readRecord_eq_ok_iff hnodup, Meets, sectionsOf, List.forall_mem_cons]
  have hself : Section.Ok format ⟨[], ds.map Decl.name⟩ node ↔ ∃ document,
      format.entries (ds.map Decl.name) node = .ok document ∧
      (document.map Prod.fst).Nodup ∧ ∀ e ∈ document, e.1 ∈ ds.map Decl.name := by
    simp [Section.Ok, Format.follow]
  rw [hself]
  constructor
  · rintro ⟨document, hentries, hunique, hspoken, hdefaults⟩
    have hknown : ∀ e ∈ document, e.1 ∈ ds.map Decl.name := by
      intro e he
      by_contra hname
      exact not_says_of_not_mem hname r (hspoken e he)
    have hslots := (slots_iff hnodup hunique r).mp ⟨fun e he _ => hspoken e he, hdefaults⟩
    have hmeets := (slots_iff_settings hentries r).mp hslots
    exact ⟨⟨⟨document, hentries, hunique, hknown⟩, hmeets.1⟩, hmeets.2⟩
  · rintro ⟨⟨⟨document, hentries, hunique, hknown⟩, hsections⟩, hsettings⟩
    have hslots := (slots_iff_settings hentries r).mpr ⟨hsections, hsettings⟩
    obtain ⟨hspoken, hdefaults⟩ := (slots_iff hnodup hunique r).mpr hslots
    exact ⟨document, hentries, hunique, fun e he => hspoken e he (hknown e he), hdefaults⟩

/-! ## Records as values -/

/-- The record of the defaults. -/
def defaultsOf : (ds : List (Decl format)) → Values ds
  | [] => ()
  | d :: ds => (d.default, defaultsOf ds)

theorem eq_defaultsOf_iff (names : List String) (r : Values ds) :
    r = defaultsOf ds ↔ ∀ setting ∈ settingsOf names ds, setting.get r = setting.default := by
  induction ds with
  | nil => simp [settingsOf, defaultsOf]
  | cons d ds ih =>
      obtain ⟨value, rest⟩ := r
      rw [defaultsOf, Prod.mk.injEq, d.defaults value, ih rest, settingsOf]
      simp only [List.forall_mem_append, List.forall_mem_map]
      exact Iff.rfl

end Reading

/-- Read a structure that is the record of the given fields. -/
def readAs {R : Type} (ds : List (Decl format)) (e : R ≃ Values ds) (node : Node) :
    Except (ReadError Error) R :=
  (readRecord ds node).map e.symm

theorem readAs_iff {R : Type} {ds : List (Decl format)} (hnodup : (ds.map Decl.name).Nodup)
    (e : R ≃ Values ds) (node : Node) (r : R) :
    readAs ds e node = .ok r ↔ Meets format (sectionsOf ds)
      ((settingsOf (ds.map Decl.name) ds).map (Setting.comap e)) node r := by
  have hread : readAs ds e node = .ok r ↔ readRecord ds node = .ok (e r) := by
    rw [readAs]
    cases readRecord ds node with
    | error error => simp [Except.map]
    | ok value =>
        show Except.ok (e.symm value) = .ok r ↔ Except.ok value = .ok (e r)
        rw [Except.ok.injEq, Except.ok.injEq, Equiv.symm_apply_eq]
  rw [hread, readRecord_iff_meets hnodup, Meets, Meets, List.forall_mem_map]
  exact Iff.rfl

/-- A part that is handed over without entries has the defaults. -/
theorem readAs_of_entries_nil {R : Type} {ds : List (Decl format)} (e : R ≃ Values ds)
    {node : Node} (h : format.entries (ds.map Decl.name) node = .ok []) :
    readAs ds e node = .ok (e.symm (defaultsOf ds)) := by
  have hfinish : ∀ ds : List (Decl format), finish ds (nothing ds) = defaultsOf ds := by
    intro ds
    induction ds with
    | nil => rfl
    | cons d ds ih => exact Prod.ext rfl ih
  rw [readAs, readRecord, h]
  exact congrArg (fun values => Except.ok (e.symm values)) (hfinish ds)

/-- A field that is a record itself. -/
def Decl.record {R : Type} (name : String) (ds : List (Decl format))
    (hnodup : (ds.map Decl.name).Nodup) (e : R ≃ Values ds) : Decl format where
  name := name
  Val := R
  read := readAs ds e
  default := e.symm (defaultsOf ds)
  sections := sectionsOf ds
  settings := (settingsOf (ds.map Decl.name) ds).map (Setting.comap e)
  meets := readAs_iff hnodup e
  defaults r := by
    rw [Equiv.eq_symm_apply, eq_defaultsOf_iff, List.forall_mem_map]
    exact Iff.rfl

end GitEventsRunner.Lib.Overlay
