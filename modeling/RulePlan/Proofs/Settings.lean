/-
  RulePlan.Proofs.Settings — settings read back from their JSON form.

  What has a default value may be missing from a settings file, and some of it is never
  written: labels that are not there, empty lists of options. Each kind of member has its
  own default, and there is a default for the catalog too, a sample. `Json.Without` says
  that some members of a document are missing, wherever in it they stand.

  Attributes, catalogs and settings are read back from any document that lacks members with
  default values, just when the doubles among the values of their options are finite, as
  JSON has no number for the others. Proved (`Settings.json_form_loses_nothing`): so whatever
  default values are missing from the JSON form of settings, what is read are the settings,
  with their own catalog, be it empty or not.
-/

import RulePlan.Proofs.Json.Carried
import RulePlan.Proofs.Keyed
import RulePlan.Settings

namespace RulePlan

/-! ## Documents with members missing -/

namespace Json

/-- Some of the members are missing, all of them from a list; the values of the others are related. -/
inductive MembersWithout (missing : List (String × Json)) (related : Json → Json → Prop) :
    List (String × Json) → List (String × Json) → Prop
  | nil : MembersWithout missing related [] []
  | drop {m : String × Json} {ms kept : List (String × Json)} (h : m ∈ missing)
      (rest : MembersWithout missing related ms kept) : MembersWithout missing related (m :: ms) kept
  | keep {key : String} {v w : Json} {ms kept : List (String × Json)} (h : related v w)
      (rest : MembersWithout missing related ms kept) :
      MembersWithout missing related ((key, v) :: ms) ((key, w) :: kept)

/-- The second document is the first one but for members from a list, which may be missing from its
    objects and from those that these hold as members. -/
inductive Without (missing : List (String × Json)) : Json → Json → Prop
  | same (v : Json) : Without missing v v
  | obj {ms kept : List (String × Json)} (h : MembersWithout missing (Without missing) ms kept) :
      Without missing (.obj ms) (.obj kept)

/-- The members of an object. -/
def members : Json → List (String × Json)
  | .obj ms => ms
  | _ => []

variable {missing ms kept : List (String × Json)} {related : Json → Json → Prop} {key : String} {v w : Json}

theorem MembersWithout.refl (h : ∀ v, related v v) (ms : List (String × Json)) :
    MembersWithout missing related ms ms := by
  induction ms with
  | nil => exact .nil
  | cons m ms ih => exact .keep (h m.2) ih

theorem Without.exists_obj (h : Without missing (.obj ms) w) :
    ∃ kept, w = .obj kept ∧ MembersWithout missing (Without missing) ms kept := by
  cases h with
  | same => exact ⟨ms, rfl, .refl Without.same ms⟩
  | obj h => exact ⟨_, rfl, h⟩

theorem once?_of_not_mem (h : key ∉ ms.map (·.1)) : once? key ms = some none := by
  have hfilter : ms.filter (·.1 = key) = [] := by
    refine List.filter_eq_nil_iff.mpr fun m hm => ?_
    rw [decide_eq_true_eq]
    rintro rfl
    exact h (List.mem_map_of_mem hm)
  rw [once?, hfilter]

theorem once?_cons_self (h : key ∉ ms.map (·.1)) : once? key ((key, v) :: ms) = some (some v) := by
  have hrest := once?_of_not_mem h
  unfold once? at hrest ⊢
  rw [List.filter_cons_of_pos (by simp)]
  split at hrest
  · next hnil => rw [hnil]
  · cases hrest
  · cases hrest

theorem once?_cons_of_ne {m : String × Json} (h : m.1 ≠ key) : once? key (m :: ms) = once? key ms := by
  rw [once?, List.filter_cons_of_neg (by simpa using h), once?]

namespace MembersWithout

theorem keys_sublist (h : MembersWithout missing related ms kept) : (kept.map (·.1)).Sublist (ms.map (·.1)) := by
  induction h with
  | nil => exact .slnil
  | drop _ _ ih => exact ih.cons _
  | keep _ _ ih => exact ih.cons_cons _

/-- A member is found in what is left, or it is one of those that may be missing and is not there. -/
theorem once?_cases (h : MembersWithout missing related ms kept) (hnd : (ms.map (·.1)).Nodup) (hm : (key, v) ∈ ms) :
    (∃ w, once? key kept = some (some w) ∧ related v w) ∨ (once? key kept = some none ∧ (key, v) ∈ missing) := by
  induction h with
  | nil => cases hm
  | drop hmissing rest ih =>
    obtain ⟨hfresh, hnd⟩ := List.nodup_cons.mp hnd
    rcases List.mem_cons.mp hm with rfl | hm
    · exact .inr ⟨once?_of_not_mem fun hk => hfresh (rest.keys_sublist.subset hk), hmissing⟩
    · exact ih hnd hm
  | keep hrelated rest ih =>
    obtain ⟨hfresh, hnd⟩ := List.nodup_cons.mp hnd
    rcases List.mem_cons.mp hm with he | hm
    · cases he
      exact .inl ⟨_, once?_cons_self fun hk => hfresh (rest.keys_sublist.subset hk), hrelated⟩
    · rw [once?_cons_of_ne]
      · exact ih hnd hm
      · rintro rfl
        exact hfresh (List.mem_map.mpr ⟨_, hm, rfl⟩)

variable {α : Type} {default : α} {read : Json → Option α} {result : Option α}

/-- A member of the document is read with the same result whether it is missing or not. -/
theorem withDefault_eq (h : MembersWithout missing related ms kept) (hnd : (ms.map (·.1)).Nodup) (hm : (key, v) ∈ ms)
    (hread : ∀ w, related v w → read w = result) (hdefault : (key, v) ∈ missing → some default = result) :
    withDefault key default read kept = result := by
  rcases h.once?_cases hnd hm with ⟨w, hw, hr⟩ | ⟨hnone, hmissing⟩
  · rw [withDefault, hw]
    exact hread w hr
  · rw [withDefault, hnone]
    exact hdefault hmissing

/-- A member that the document has not got is read as the default. -/
theorem withDefault_of_not_mem (h : MembersWithout missing related ms kept) (hkey : key ∉ ms.map (·.1)) :
    withDefault key default read kept = some default := by
  rw [withDefault, once?_of_not_mem fun hk => hkey (h.keys_sublist.subset hk)]
  rfl

end MembersWithout

/-- Texts, numbers and lists have no members that could be missing. -/
theorem Without.eq_self (h : Without missing v w) (hv : ∀ ms, v ≠ .obj ms) : w = v := by
  cases h with
  | same => rfl
  | obj => exact absurd rfl (hv _)

/-- A member that is no object is read from what is left as from the document. -/
theorem MembersWithout.withDefault_leaf {α : Type} {default : α} {read : Json → Option α} {result : Option α}
    (h : MembersWithout missing (Without missing) ms kept) (hnd : (ms.map (·.1)).Nodup) (hm : (key, v) ∈ ms)
    (hv : ∀ ms, v ≠ .obj ms) (hread : read v = result) (hdefault : (key, v) ∈ missing → some default = result) :
    withDefault key default read kept = result :=
  h.withDefault_eq hnd hm (fun _ hw => hw.eq_self hv ▸ hread) hdefault

end Json

/-! ## What JSON has numbers for -/

def Choice.Finite (c : Choice) : Prop := c.value.Finite

instance : DecidablePred Choice.Finite := fun c => inferInstanceAs (Decidable c.value.Finite)

theorem Choice.ofJson?_toJson (c : Choice) : ofJson? c.toJson = if c.Finite then some c else none := by
  obtain ⟨value, label⟩ := c
  have hread : ofJson? (toJson ⟨value, label⟩) = (Scalar.ofJson? value.toJson).map fun v => ⟨v, label⟩ := by
    cases h : Scalar.ofJson? value.toJson <;>
      simp [toJson, ofJson?, Json.record?, Json.required, Json.once?, Json.str?, h]
  rw [hread, Scalar.ofJson?_toJson_eq]
  exact apply_ite (Option.map _) _ _ _

def Attribute.Finite (a : Attribute) : Prop := ∀ c ∈ a.choices, c.Finite

instance : DecidablePred Attribute.Finite := fun a => List.decidableBAll _ a.choices

def Catalog.Finite (c : Catalog) : Prop := ∀ e ∈ c.entries, e.2.Finite

instance : DecidablePred Catalog.Finite := fun c => List.decidableBAll _ c.entries

/-- All doubles among the values of options are finite. -/
def Settings.Finite (s : Settings) : Prop := s.catalog.Finite

instance : DecidablePred Settings.Finite := fun s => inferInstanceAs (Decidable s.catalog.Finite)

/-! ## Members with default values -/

/-- What may be missing: the members of attributes and of settings, catalogs apart, as they are
    written for the default value of each. -/
def defaultMembers : List (String × Json) :=
  [("exists", .bool true), ("valueType", .str Storage.plain.name), ("storageDelimiter", .str defaultDelimiter),
    ("entityTable", .str defaultTable), ("dialect", .str Dialect.mysql.name), ("maxDepth", .int defaultMaxDepth),
    ("defaultAttributeSetId", .null)]

/-- Nothing but default members is missing. -/
abbrev Json.LacksDefaults (ms kept : List (String × Json)) : Prop :=
  Json.MembersWithout defaultMembers (Json.Without defaultMembers) ms kept

section

variable {w : Json}

theorem obj_not_mem_defaultMembers (key : String) (ms : List (String × Json)) :
    (key, Json.obj ms) ∉ defaultMembers := by
  simp [defaultMembers]

namespace Attribute

theorem keys_nodup (a : Attribute) : (a.toJson.members.map (·.1)).Nodup := by
  obtain ⟨present, storage, delimiter, label, choices⟩ := a
  cases label <;> cases choices <;> simp [toJson, Json.members]

variable {a : Attribute} {kept : List (String × Json)}

theorem label_read (h : Json.LacksDefaults a.toJson.members kept) :
    Json.optional "label" Json.str? kept = some a.label := by
  obtain ⟨present, storage, delimiter, label, choices⟩ := a
  cases label with
  | none => exact h.withDefault_of_not_mem (by cases choices <;> simp [toJson, Json.members])
  | some s =>
    refine h.withDefault_leaf (keys_nodup _) (v := .str s) ?_ nofun rfl ?_
    · cases choices <;> simp [toJson, Json.members]
    · simp [defaultMembers]

theorem choices_read (h : Json.LacksDefaults a.toJson.members kept) :
    Json.withDefault "options" [] (Json.list? Choice.ofJson?) kept = if a.Finite then some a.choices else none := by
  obtain ⟨present, storage, delimiter, label, choices⟩ := a
  cases choices with
  | nil =>
    refine (h.withDefault_of_not_mem (by cases label <;> simp [toJson, Json.members])).trans ?_
    simp [Finite]
  | cons c rest =>
    refine h.withDefault_leaf (keys_nodup _) (v := .arr ((c :: rest).map Choice.toJson)) ?_ nofun
      (Json.mapM_written Choice.ofJson?_toJson (c :: rest)) ?_
    · cases label <;> simp [toJson, Json.members]
    · simp [defaultMembers]

theorem ofJson?_without (h : Json.Without defaultMembers a.toJson w) :
    ofJson? w = if a.Finite then some a else none := by
  obtain ⟨kept, rfl, hkept⟩ : ∃ kept, w = .obj kept ∧ Json.LacksDefaults a.toJson.members kept := h.exists_obj
  have hpresent : Json.withDefault "exists" true Json.bool? kept = some a.present := by
    refine hkept.withDefault_leaf a.keys_nodup (v := .bool a.present) ?_ nofun rfl ?_
    · simp [toJson, Json.members]
    · simp +contextual [defaultMembers]
  have hstorage : Json.withDefault "valueType" .plain (fun v => (Json.name? v).bind Storage.ofName?) kept =
      some a.storage := by
    refine hkept.withDefault_leaf a.keys_nodup (v := .str a.storage.name) ?_ nofun a.storage.ofName?_name ?_
    · simp [toJson, Json.members]
    · cases a.storage <;> simp [defaultMembers, Storage.name]
  have hdelimiter : Json.withDefault "storageDelimiter" defaultDelimiter Json.str? kept = some a.delimiter := by
    refine hkept.withDefault_leaf a.keys_nodup (v := .str a.delimiter) ?_ nofun rfl ?_
    · simp [toJson, Json.members]
    · simp +contextual [defaultMembers]
  simp only [ofJson?, Json.record?, Option.bind_eq_bind, Option.bind_some]
  rw [hpresent, hstorage, hdelimiter, label_read hkept, choices_read hkept]
  by_cases hf : a.Finite
  · rw [if_pos hf, if_pos hf]
    rfl
  · rw [if_neg hf, if_neg hf]
    rfl

end Attribute

namespace Catalog

/-- No entry of a catalog may be missing. -/
theorem mapM_without {entries : List (String × Attribute)} {kept : List (String × Json)}
    (h : Json.LacksDefaults (entries.map fun e => (e.1, e.2.toJson)) kept) :
    (kept.mapM fun m => (Attribute.ofJson? m.2).map (m.1, ·)) =
      if ∀ e ∈ entries, e.2.Finite then some entries else none := by
  induction entries generalizing kept with
  | nil =>
    cases h
    simp
  | cons e rest ih =>
    obtain ⟨code, a⟩ := e
    cases h with
    | drop hmissing => exact absurd hmissing (obj_not_mem_defaultMembers code _)
    | keep hw hrest =>
      have hcons : (∀ e ∈ (code, a) :: rest, e.2.Finite) ↔ a.Finite ∧ ∀ e ∈ rest, e.2.Finite := List.forall_mem_cons
      rw [List.mapM_cons, Attribute.ofJson?_without hw, ih hrest, if_congr hcons rfl rfl]
      by_cases ha : a.Finite
      · by_cases hall : ∀ e ∈ rest, e.2.Finite
        · rw [if_pos ha, if_pos hall, if_pos ⟨ha, hall⟩]
          rfl
        · rw [if_pos ha, if_neg hall, if_neg fun hboth : a.Finite ∧ _ => hall hboth.2]
          rfl
      · rw [if_neg ha, if_neg fun hboth : a.Finite ∧ _ => ha hboth.1]
        rfl

theorem ofList_entries (c : Catalog) : ofList c.entries = c := by
  obtain ⟨entries, h⟩ := c
  have he : Keyed.ofList entries = entries := Keyed.ofList_of_ascending h
  simp only [ofList, he]

theorem ofJson?_without {c : Catalog} (h : Json.Without defaultMembers c.toJson w) :
    ofJson? w = if c.Finite then some c else none := by
  obtain ⟨kept, rfl, hkept⟩ := h.exists_obj
  rw [ofJson?, mapM_without hkept]
  refine (apply_ite (Option.map ofList) _ _ _).trans ?_
  rw [Option.map_some, ofList_entries]
  rfl

end Catalog

namespace Settings

theorem count?_toNat (n : UInt64) : count? (.int n.toNat) = some n := by
  have hn := n.toNat_lt
  rw [count?, if_pos ⟨by omega, by simp [UInt64.size]; omega⟩]
  simp

theorem identifier?_toInt (n : Int64) : identifier? (.int n.toInt) = some n := by
  rw [identifier?, if_pos (Binary64.toInt_range n), Int64.ofInt_toInt]

theorem keys_nodup (s : Settings) : (s.toJson.members.map (·.1)).Nodup := by
  simp [toJson, Json.members]

variable {s : Settings} {kept : List (String × Json)}

theorem attributeSet_read (h : Json.LacksDefaults s.toJson.members kept) :
    Json.optional "defaultAttributeSetId" identifier? kept = some s.defaultAttributeSet := by
  obtain ⟨table, dialect, maxDepth, defaultAttributeSet, catalog⟩ := s
  cases defaultAttributeSet with
  | none =>
    refine h.withDefault_leaf (keys_nodup _) (v := .null) ?_ nofun rfl fun _ => rfl
    simp [toJson, Json.members]
  | some n =>
    refine h.withDefault_leaf (keys_nodup _) (v := .int n.toInt) ?_ nofun ?_ ?_
    · simp [toJson, Json.members]
    · simp [identifier?_toInt]
    · simp [defaultMembers]

theorem ofJson?_without (h : Json.Without defaultMembers s.toJson w) :
    ofJson? w = if s.Finite then some s else none := by
  obtain ⟨kept, rfl, hkept⟩ : ∃ kept, w = .obj kept ∧ Json.LacksDefaults s.toJson.members kept := h.exists_obj
  have htable : Json.withDefault "entityTable" defaultTable Json.str? kept = some s.table := by
    refine hkept.withDefault_leaf s.keys_nodup (v := .str s.table) ?_ nofun rfl ?_
    · simp [toJson, Json.members]
    · simp +contextual [defaultMembers]
  have hdialect : Json.withDefault "dialect" .mysql Dialect.ofJson? kept = some s.dialect := by
    refine hkept.withDefault_leaf s.keys_nodup (v := .str s.dialect.name) ?_ nofun s.dialect.ofName?_name ?_
    · simp [toJson, Json.members]
    · cases s.dialect <;> simp [defaultMembers, Dialect.name]
  have hdepth : Json.withDefault "maxDepth" (UInt64.ofNat defaultMaxDepth) count? kept = some s.maxDepth := by
    refine hkept.withDefault_leaf s.keys_nodup (v := .int s.maxDepth.toNat) ?_ nofun (count?_toNat _) ?_
    · simp [toJson, Json.members]
    · intro hm
      have hdefault : (s.maxDepth.toNat : Int) = defaultMaxDepth := by simpa [defaultMembers] using hm
      rw [← Int.ofNat_inj.mp hdefault, UInt64.ofNat_toNat]
  have hcatalog : Json.withDefault "attributes" sampleCatalog Catalog.ofJson? kept =
      if s.Finite then some s.catalog else none := by
    refine hkept.withDefault_eq s.keys_nodup (v := s.catalog.toJson) ?_ (fun w hw => Catalog.ofJson?_without hw) ?_
    · simp [toJson, Json.members]
    · exact fun hm => absurd hm (obj_not_mem_defaultMembers _ _)
  simp only [ofJson?, Json.record?, Option.bind_eq_bind, Option.bind_some]
  rw [htable, hdialect, hdepth, attributeSet_read hkept, hcatalog]
  by_cases hf : s.Finite
  · rw [if_pos hf, if_pos hf]
    rfl
  · rw [if_neg hf, if_neg hf]
    rfl

end Settings

end

/-- Settings are read back from their JSON form just when the doubles in their catalog are finite,
    and then also if any members with default values are missing from it. -/
theorem Settings.json_form_loses_nothing (s : Settings) :
    (ofJson? s.toJson = some s ↔ s.Finite) ∧
      (s.Finite → ∀ v, Json.Without defaultMembers s.toJson v → ofJson? v = some s) := by
  constructor
  · rw [ofJson?_without (.same _)]
    simp
  · intro hf v hv
    rw [ofJson?_without hv, if_pos hf]

/-- An attribute that is not there, with an option, and one that is, with an empty label. -/
def legacyCatalog : Catalog :=
  ⟨[("legacy", { present := false, choices := [⟨.int 1, "one"⟩] }),
    ("tags", { storage := .codeSet, label := some "" })], by decide⟩

/-- Without any of the default members. -/
def legacyDocument : Json :=
  .obj [("attributes", .obj
      [("legacy", .obj [("exists", .bool false),
          ("options", .arr [.obj [("label", .str "one"), ("value", .int 1)]])]),
        ("tags", .obj [("label", .str ""), ("valueType", .str "multiValueSet")])]),
    ("dialect", .str "postgres")]

/-- The sample catalog stands in for no other, not even for an empty one. -/
theorem a_file_with_its_own_catalog_is_read_with_that_catalog :
    let settings : Settings := { dialect := .postgres, catalog := legacyCatalog }
    let bare : Settings := { catalog := {} }
    settings.Finite ∧ Json.Without defaultMembers settings.toJson legacyDocument ∧
      Settings.ofJson? legacyDocument = some settings ∧
      bare.Finite ∧ Json.Without defaultMembers bare.toJson (.obj [("attributes", .obj [])]) ∧
      Settings.ofJson? (.obj [("attributes", .obj [])]) = some bare := by
  intro settings bare
  have hsettings : settings.Finite := by decide
  have hbare : bare.Finite := by decide
  have hdepth : ("maxDepth", Json.int (UInt64.ofNat defaultMaxDepth).toNat) ∈ defaultMembers := by
    simp [defaultMembers, defaultMaxDepth]
  have hlegacy : Json.Without defaultMembers settings.toJson legacyDocument := by
    refine .obj (.keep (.obj (.keep (.obj (.keep (.same _) (.keep (.same _) (.drop ?_ (.drop ?_ .nil)))))
      (.keep (.obj (.drop ?_ (.keep (.same _) (.drop ?_ (.keep (.same _) .nil))))) .nil)))
      (.drop ?_ (.keep (.same _) (.drop ?_ (.drop hdepth .nil)))))
    all_goals simp [defaultMembers, settings]
  have hempty : Json.Without defaultMembers bare.toJson (.obj [("attributes", .obj [])]) := by
    refine .obj (.keep (.same _) (.drop ?_ (.drop ?_ (.drop ?_ (.drop hdepth .nil)))))
    all_goals simp [defaultMembers, bare]
  exact ⟨hsettings, hlegacy, settings.json_form_loses_nothing.2 hsettings _ hlegacy, hbare, hempty,
    bare.json_form_loses_nothing.2 hbare _ hempty⟩

end RulePlan
