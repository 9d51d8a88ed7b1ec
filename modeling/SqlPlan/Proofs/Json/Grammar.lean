import Mathlib.Data.List.Forall2
import Mathlib.Data.List.Count
import SqlPlan.Json.Shape

/-!
# The grammar of records and variants

Which trees stand for a record, a variant or a list, said without reference to how they are read.  A
record of given fields is an object with each of them once, in any order and among any other keys,
or an array of exactly the fields in their order (`Json.Record`).  A variant is an object of one key
(`Json.Variant`), or a name if it has no payload (`Json.UnitVariant`).

The readers of records, variants and lists accept exactly what the grammar says
(`Json.record_iff`, `Json.variant_iff`, `Json.unit?_eq_some_iff`, `Json.listOf?_eq_some_iff`).  And
the grammar does not mind the order of entries, in any object at any depth: what is put together by
its rules from parts that do not mind does not mind either (`Json.Unordered.record` and the like).
-/

namespace SqlPlan.Json

/-! ### The grammar -/

/-- A field of a record, with a value to be represented. -/
structure Field where
  name : String
  /-- The trees that represent the value. -/
  Holds : Json → Prop
  /-- Whether the value is also represented by the absence of the field from an object. -/
  MayMiss : Prop

namespace Field

/-- A field that must be there. -/
def required (name : String) (holds : Json → Prop) : Field := ⟨name, holds, False⟩

/-- An optional field without a value: it is null, or missing. -/
def absent (name : String) : Field := ⟨name, (· = null), True⟩

/-- An optional field. -/
def optional (name : String) (represents : α → Json → Prop) : Option α → Field
  | none => absent name
  | some a => required name (represents a)

/-- The entries of an object represent the field: its key occurs exactly once and with a tree that
represents the value, or it does not occur where it may be missing. -/
def InObject (f : Field) (entries : List (String × Json)) : Prop :=
  (∃ j, (f.name, j) ∈ entries ∧ (entries.map Prod.fst).count f.name = 1 ∧ f.Holds j) ∨
    (f.name ∉ entries.map Prod.fst ∧ f.MayMiss)

end Field

/-- A tree that represents a record of the given fields, in their declared order. -/
inductive Record (fields : List Field) : Json → Prop where
  | object {entries : List (String × Json)} :
    (∀ f ∈ fields, f.InObject entries) → Record fields (obj entries)
  | array {items : List Json} : List.Forall₂ Field.Holds fields items → Record fields (arr items)

/-- A tree that represents a variant whose payload is as given. -/
def Variant (name : String) (payload : Json → Prop) (j : Json) : Prop :=
  ∃ p, j = variant name p ∧ payload p

/-- A tree that represents a variant without payload. -/
def UnitVariant (name : String) (j : Json) : Prop := j = str name ∨ j = variant name null

/-- A tree that represents a string. -/
def IsStr (s : String) (j : Json) : Prop := j = str s

/-- A tree that represents a list whose items are as given. -/
def ArrayOf (items : List Json → Prop) (j : Json) : Prop := ∃ js, j = arr js ∧ items js

/-! ### Basic values -/

@[simp]
theorem str?_eq_some_iff {j : Json} {s : String} : j.str? = some s ↔ IsStr s j := by
  cases j <;> simp [str?, IsStr]

@[simp]
theorem bool?_eq_some_iff {j : Json} {b : Bool} : j.bool? = some b ↔ j = bool b := by
  cases j <;> simp [bool?]

@[simp]
theorem int64?_eq_some_iff {j : Json} {n : Int64} : j.int64? = some n ↔ j = int n.toInt := by
  cases j with
  | int m =>
    rw [int64?, int.injEq]
    constructor
    · intro h
      split_ifs at h with range
      obtain rfl := Option.some.inj h
      exact (Int64.toInt_ofInt_of_le range.1 (Int.lt_add_one_of_le range.2)).symm
    · rintro rfl
      rw [if_pos ⟨n.minValue_le_toInt, n.toInt_le⟩, Int64.ofInt_toInt]
  | _ => simp [int64?]

/-! ### Lists -/

theorem mapM_eq_some_iff {f : α → Option β} {as : List α} {bs : List β} :
    as.mapM f = some bs ↔ List.Forall₂ (fun b a => f a = some b) bs as := by
  induction as generalizing bs with
  | nil => simp [eq_comm]
  | cons a as ih =>
    rw [List.mapM_cons, List.forall₂_cons_right_iff]
    constructor
    · intro h
      obtain ⟨b, hb, h⟩ := Option.bind_eq_some_iff.mp h
      obtain ⟨bs', hbs, h⟩ := Option.bind_eq_some_iff.mp h
      exact ⟨b, bs', hb, ih.mp hbs, (Option.some.inj h).symm⟩
    · rintro ⟨b, bs', hb, hbs, rfl⟩
      simp [hb, ih.mpr hbs]

/-- A list is read by reading its items. -/
@[simp]
theorem listOf?_eq_some_iff {f : Json → Option α} {j : Json} {as : List α} :
    (j.listOf? fun p => f p.1) = some as ↔
      ArrayOf (List.Forall₂ (fun a p => f p = some a) as) j := by
  cases j with
  | arr items =>
    have read : (arr items).listOf? (fun p => f p.1) = items.mapM f := by
      simp only [listOf?, items?, Option.bind_eq_bind, Option.bind_some, List.mapM_map]
      conv_rhs => rw [← items.attach_map_subtype_val, List.mapM_map]
      rfl
    rw [read, mapM_eq_some_iff]
    simp [ArrayOf]
  | _ => simp [listOf?, items?, ArrayOf]

/-! ### Records -/

/-- What is found of a field represents its value. -/
def Field.Accepts (f : Field) : Option Json → Prop
  | some j => f.Holds j
  | none => f.MayMiss

section Field

variable {entries : List (String × α)} {key : String}

/-- The entries at a key are as many as its occurrences among all keys. -/
theorem length_filter_key :
    (entries.filter (·.1 == key)).length = (entries.map Prod.fst).count key := by
  rw [List.count, List.countP_map, List.countP_eq_length_filter]
  rfl

theorem field?_eq_none_iff : field? entries key = some none ↔ key ∉ entries.map Prod.fst := by
  rw [← List.count_eq_zero, ← length_filter_key, field?]
  generalize entries.filter (·.1 == key) = found
  rcases found with _ | ⟨e, _ | ⟨e', es⟩⟩ <;> simp

theorem field?_eq_some_iff {a : α} :
    field? entries key = some (some a) ↔
      (key, a) ∈ entries ∧ (entries.map Prod.fst).count key = 1 := by
  have mem_iff : (key, a) ∈ entries ↔ (key, a) ∈ entries.filter (·.1 == key) := by
    simp
  have keys : ∀ e ∈ entries.filter (·.1 == key), e.1 = key := by
    simp
  rw [← length_filter_key, mem_iff, field?]
  generalize entries.filter (·.1 == key) = found at keys ⊢
  rcases found with _ | ⟨⟨k, b⟩, _ | ⟨e', es⟩⟩
  · simp
  · obtain rfl : k = key := keys (k, b) List.mem_cons_self
    simp [eq_comm]
  · simp

end Field

/-- An object represents a field exactly if what is found of it does. -/
theorem Field.inObject_iff {f : Field} {j : Json} {entries : List (String × Part j)} :
    f.InObject (entries.map fun e => (e.1, e.2.1)) ↔
      ∃ found, field? entries f.name = some found ∧ f.Accepts found.unattach := by
  have keys : (entries.map fun e => (e.1, e.2.1)).map Prod.fst = entries.map Prod.fst := by
    simp
  rw [InObject, keys]
  constructor
  · rintro (⟨p, mem, once, holds⟩ | ⟨missing, mayMiss⟩)
    · obtain ⟨⟨key, part⟩, found, same⟩ := List.mem_map.mp mem
      obtain ⟨rfl, rfl⟩ := Prod.mk.inj same
      exact ⟨some part, field?_eq_some_iff.mpr ⟨found, once⟩, holds⟩
    · exact ⟨none, field?_eq_none_iff.mpr missing, mayMiss⟩
  · rintro ⟨_ | part, found, accepts⟩
    · exact .inr ⟨field?_eq_none_iff.mp found, accepts⟩
    · obtain ⟨mem, once⟩ := field?_eq_some_iff.mp found
      exact .inl ⟨part.1, List.mem_map.mpr ⟨_, mem, rfl⟩, once, accepts⟩

/-- If each field has its entry, the entries of all fields make a list. -/
theorem exists_mapM_iff {fields : List Field} {j : Json} {entries : List (String × Part j)} :
    (∀ f ∈ fields, f.InObject (entries.map fun e => (e.1, e.2.1))) ↔
      ∃ parts, (fields.map Field.name).mapM (field? entries) = some parts ∧
        List.Forall₂ (fun f part => f.Accepts part.unattach) fields parts := by
  induction fields with
  | nil => simp
  | cons f fields ih =>
    rw [List.forall_mem_cons, ih, Field.inObject_iff, List.map_cons, List.mapM_cons]
    constructor
    · rintro ⟨⟨found, hfound, accepts⟩, parts, hparts, rest⟩
      exact ⟨found :: parts, by simp [hfound, hparts], .cons accepts rest⟩
    · rintro ⟨_, h, all⟩
      obtain ⟨found, hfound, h⟩ := Option.bind_eq_some_iff.mp h
      obtain ⟨parts, hparts, h⟩ := Option.bind_eq_some_iff.mp h
      obtain rfl := Option.some.inj h
      obtain ⟨accepts, rest⟩ := List.forall₂_cons.mp all
      exact ⟨⟨found, hfound, accepts⟩, parts, hparts, rest⟩

theorem record_arr_iff {fields : List Field} {items : List Json} :
    Record fields (arr items) ↔ List.Forall₂ Field.Holds fields items :=
  ⟨fun | .array h => h, .array⟩

theorem record_obj_iff {fields : List Field} {entries : List (String × Json)} :
    Record fields (obj entries) ↔ ∀ f ∈ fields, f.InObject entries :=
  ⟨fun | .object h => h, .object⟩

/-- A record is read by reading what is found of each field. -/
theorem record_iff {fields : List Field} {j : Json} :
    Record fields j ↔ ∃ parts, j.record? (fields.map Field.name) = some parts ∧
      List.Forall₂ (fun f part => f.Accepts part.unattach) fields parts := by
  cases j with
  | arr items =>
    obtain ⟨parts, read, values⟩ : ∃ parts, (arr items).items? = some parts ∧
        parts.map Subtype.val = items := ⟨_, rfl, by simp⟩
    have accepts_iff : List.Forall₂ (fun f part => f.Accepts part.unattach) fields
        (parts.map some) ↔ List.Forall₂ Field.Holds fields items := by
      conv_rhs => rw [← values]
      rw [List.forall₂_map_right_iff, List.forall₂_map_right_iff]
      rfl
    rw [record_arr_iff, ← accepts_iff, record?, read]
    constructor
    · intro h
      have len : parts.length = (fields.map Field.name).length := by simpa using h.length_eq.symm
      exact ⟨parts.map some, if_pos len, h⟩
    · rintro ⟨found, h, accepts⟩
      dsimp only at h
      split_ifs at h
      obtain rfl := Option.some.inj h
      exact accepts
  | obj entries =>
    obtain ⟨parts, read, values⟩ : ∃ parts, (obj entries).entries? = some parts ∧
        parts.map (fun e => (e.1, e.2.1)) = entries :=
          ⟨_, rfl, (List.map_map ..).trans entries.attach_map_subtype_val⟩
    have read : (obj entries).record? (fields.map Field.name) =
        (fields.map Field.name).mapM (field? parts) := by
      rw [record?, read]
      rfl
    rw [record_obj_iff, read, ← exists_mapM_iff, values]
  | _ =>
    constructor
    · nofun
    · rintro ⟨_, h, _⟩
      cases h

namespace Field

@[simp]
theorem required_name (name : String) (holds : Json → Prop) : (required name holds).name = name :=
  rfl

@[simp]
theorem optional_name (name : String) (represents : α → Json → Prop) (o : Option α) :
    (optional name represents o).name = name := by
  cases o <;> rfl

@[simp]
theorem required_holds (name : String) (holds : Json → Prop) :
    (required name holds).Holds = holds :=
  rfl

@[simp]
theorem accepts_required_none {name : String} {holds : Json → Prop} :
    ¬(required name holds).Accepts none :=
  id

@[simp]
theorem accepts_required_some {name : String} {holds : Json → Prop} {j : Json} :
    (required name holds).Accepts (some j) ↔ holds j :=
  .rfl

end Field

theorem optional_of_ne_null {j : Json} {decode : Part j → Option α} {p : Part j}
    (h : p.1 ≠ null) : optional decode (some p) = (decode p).map some := by
  obtain ⟨p, _⟩ := p
  cases p with
  | null => exact absurd rfl h
  | _ => rfl

/-- An optional value is read from what is found of its field. -/
theorem optional_eq_some_iff {j : Json} {decode : Part j → Option α}
    {represents : α → Json → Prop} {o : Option α}
    (read : ∀ a ∈ o, ∀ p, decode p = some a ↔ represents a p.1)
    (notNull : ∀ a ∈ o, ¬represents a null) {name : String} {found : Option (Part j)} :
    optional decode found = some o ↔
      (Field.optional name represents o).Accepts found.unattach := by
  rcases found with _ | p
  · cases o <;> simp [optional, Field.optional, Field.absent, Field.Accepts, Field.required]
  by_cases isNull : p.1 = null
  · obtain ⟨_, _⟩ := p
    subst isNull
    cases o with
    | none => simp [optional, Field.optional, Field.absent, Field.Accepts]
    | some a => simpa [optional, Field.optional] using notNull a rfl
  · rw [optional_of_ne_null isNull]
    cases o with
    | none => simpa [Field.optional, Field.absent, Field.Accepts] using isNull
    | some a => simp [Field.optional, read a rfl]

/-! ### Variants -/

/-- A variant without payload is read if its name is found among all names. -/
theorem unit?_eq_some_iff {all : List α} {name : α → String}
    (found : ∀ a, all.find? (name · == name a) = some a) {j : Json} {a : α} :
    j.unit? all name = some a ↔ UnitVariant (name a) j := by
  have find_iff : ∀ key, all.find? (name · == key) = some a ↔ key = name a := by
    intro key
    constructor
    · intro h
      have same := List.find?_some h
      exact (beq_iff_eq.mp same).symm
    · rintro rfl
      exact found a
  cases j with
  | str key => simp [unit?, variant?, UnitVariant, variant, find_iff]
  | obj entries =>
    rcases entries with _ | ⟨⟨key, p⟩, _ | ⟨e, es⟩⟩
    · simp [unit?, variant?, UnitVariant, variant]
    · cases p <;> simp [unit?, variant?, UnitVariant, variant, find_iff]
    · simp [unit?, variant?, UnitVariant, variant]
  | _ => simp [unit?, variant?, UnitVariant, variant]

/-- A variant with payload is read by reading the payload, if only that variant yields the value. -/
theorem variant_iff {decode : Json → Option α} {a : α} {name : String} {payload : Json → Prop}
    (tagged : ∀ {j}, decode j = some a → ∃ p, j = variant name p)
    (read : ∀ p, decode (variant name p) = some a ↔ payload p) {j : Json} :
    decode j = some a ↔ Variant name payload j := by
  constructor
  · intro h
    obtain ⟨p, rfl⟩ := tagged h
    exact ⟨p, rfl, (read p).mp h⟩
  · rintro ⟨p, rfl, h⟩
    exact (read p).mpr h

theorem eq_variant_of_variant? {j : Json} {name : String} {p : Part j}
    (h : j.variant? = some (name, some p)) : j = variant name p.1 := by
  cases j with
  | obj entries =>
    rcases entries with _ | ⟨⟨key, q⟩, _ | ⟨e, es⟩⟩
    · cases h
    · cases h
      rfl
    · cases h
  | _ => cases h

/-! ### Order of entries -/

/-- One object of a tree, at any depth, has its entries in another order. -/
inductive Reordered : Json → Json → Prop where
  | entries {entries entries' : List (String × Json)} :
    entries.Perm entries' → Reordered (obj entries) (obj entries')
  | item {before after : List Json} {x y : Json} :
    Reordered x y → Reordered (arr (before ++ x :: after)) (arr (before ++ y :: after))
  | value {before after : List (String × Json)} {key : String} {x y : Json} :
    Reordered x y →
      Reordered (obj (before ++ (key, x) :: after)) (obj (before ++ (key, y) :: after))

theorem Reordered.symm {j j' : Json} (h : Reordered j j') : Reordered j' j := by
  induction h with
  | entries perm => exact .entries perm.symm
  | item _ ih => exact .item ih
  | value _ ih => exact .value ih

/-- What holds of a tree regardless of the order of entries. -/
def Unordered (P : Json → Prop) : Prop := ∀ ⦃j j'⦄, Reordered j j' → P j → P j'

theorem forall₂_replace {R : α → β → Prop} {as : List α} {before after : List β} {x y : β}
    (replace : ∀ a ∈ as, R a x → R a y) (h : List.Forall₂ R as (before ++ x :: after)) :
    List.Forall₂ R as (before ++ y :: after) := by
  induction before generalizing as with
  | nil =>
    obtain ⟨a, as, first, rest, rfl⟩ := List.forall₂_cons_right_iff.mp h
    exact .cons (replace a List.mem_cons_self first) rest
  | cons b before ih =>
    obtain ⟨a, as, first, rest, rfl⟩ := List.forall₂_cons_right_iff.mp h
    exact .cons first (ih (fun a ha => replace a (List.mem_cons_of_mem _ ha)) rest)

theorem Unordered.eq {a : Json} (leaf : ∀ j, ¬Reordered a j) : Unordered (· = a) := by
  rintro _ j' reordered rfl
  exact absurd reordered (leaf j')

@[simp]
theorem Unordered.isStr (s : String) : Unordered (IsStr s) := .eq (a := str s) nofun

@[simp]
theorem Unordered.bool (b : Bool) : Unordered (· = bool b) := .eq nofun

theorem Unordered.variant {name : String} {payload : Json → Prop} (h : Unordered payload) :
    Unordered (Variant name payload) := by
  rintro _ j' reordered ⟨p, rfl, holds⟩
  generalize isVariant : Json.variant name p = j at reordered
  cases reordered with
  | entries perm =>
    obtain rfl := obj.inj isVariant
    rw [← List.singleton_perm.mp perm]
    exact ⟨p, rfl, holds⟩
  | item _ => cases isVariant
  | @value before after key x y reordered =>
    have single := obj.inj isVariant
    cases before with
    | nil =>
      obtain ⟨⟨rfl, rfl⟩, rfl⟩ : (name = key ∧ p = x) ∧ after = [] := by simpa using single
      exact ⟨y, rfl, h reordered holds⟩
    | cons e before => simp at single

@[simp]
theorem Unordered.unitVariant (name : String) : Unordered (UnitVariant name) := by
  rintro j j' reordered (h | h)
  · exact .inl (Unordered.isStr name reordered h)
  · obtain ⟨p, h, rfl⟩ := Unordered.variant (.eq (a := null) nofun) reordered ⟨_, h, rfl⟩
    exact .inr h

theorem Unordered.arrayOf {R : α → Json → Prop} {as : List α} (h : ∀ a ∈ as, Unordered (R a)) :
    Unordered (ArrayOf (List.Forall₂ R as)) := by
  rintro _ j' reordered ⟨js, rfl, holds⟩
  cases reordered with
  | item reordered => exact ⟨_, rfl, forall₂_replace (fun a ha => h a ha reordered) holds⟩

namespace Field.InObject

variable {f : Field} {entries entries' before after : List (String × Json)}

theorem of_perm (perm : entries.Perm entries') (h : f.InObject entries) : f.InObject entries' := by
  have keys := perm.map Prod.fst
  rcases h with ⟨j, mem, once, holds⟩ | ⟨missing, mayMiss⟩
  · exact .inl ⟨j, perm.mem_iff.mp mem, (keys.count_eq _).symm.trans once, holds⟩
  · exact .inr ⟨fun mem => missing (keys.mem_iff.mpr mem), mayMiss⟩

theorem replace {key : String} {x y : Json} (holds : f.Holds x → f.Holds y)
    (h : f.InObject (before ++ (key, x) :: after)) : f.InObject (before ++ (key, y) :: after) := by
  have keys : (before ++ (key, x) :: after).map Prod.fst =
      (before ++ (key, y) :: after).map Prod.fst := by
    simp
  rw [InObject, keys] at h
  rcases h with ⟨j, mem, once, holdsj⟩ | missing
  · by_cases isKey : f.name = key
    · -- The key occurs once, so what is found at it is the value that is replaced.
      have same : some (some j) = some (some x) :=
        (field?_eq_some_iff.mpr ⟨mem, keys ▸ once⟩).symm.trans
          (field?_eq_some_iff.mpr ⟨by simp [isKey], keys ▸ once⟩)
      obtain rfl : j = x := by simpa using same
      exact .inl ⟨y, by simp [isKey], once, holds holdsj⟩
    · exact .inl ⟨j, by simpa [isKey] using mem, once, holdsj⟩
  · exact .inr missing

end Field.InObject

theorem Unordered.optional {name : String} {represents : α → Json → Prop} {o : Option α}
    (h : ∀ a ∈ o, Unordered (represents a)) :
    Unordered (Field.optional name represents o).Holds := by
  cases o with
  | none => exact .eq (a := null) nofun
  | some a => exact h a rfl

theorem Unordered.record {fields : List Field} (h : ∀ f ∈ fields, Unordered f.Holds) :
    Unordered (Record fields) := by
  intro j j' reordered holds
  cases reordered with
  | entries perm =>
    rw [record_obj_iff] at holds ⊢
    exact fun f hf => (holds f hf).of_perm perm
  | item reordered =>
    rw [record_arr_iff] at holds ⊢
    exact forall₂_replace (fun f hf => h f hf reordered) holds
  | value reordered =>
    rw [record_obj_iff] at holds ⊢
    exact fun f hf => (holds f hf).replace (h f hf reordered)

end SqlPlan.Json
