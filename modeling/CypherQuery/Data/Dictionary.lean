/-! # Dictionaries

A `Dictionary α` is a finite map from names to values of `α`, listed in the order of the names by
code point. The order is part of the type, so two dictionaries with the same entries are equal.
Values go in by `insert` and `ofList`, and come out by `get?`, `contains` and `names`; the laws
below say what `insert` changes and what it leaves alone. -/

namespace CypherQuery

/-- Entries under pairwise different names, in ascending order `<` of the names. -/
structure Dictionary (α : Type) where
  /-- The entries in order. -/
  entries : List (String × α)
  /-- Each name is smaller than all that follow, which `put` keeps up (`ascending_put`). -/
  ascending : entries.Pairwise (·.1 < ·.1)

namespace Dictionary

variable {α : Type}

/-- The dictionary without entries. -/
def empty : Dictionary α :=
  ⟨[], .nil⟩

/-- The empty collection is the dictionary without entries. -/
instance : EmptyCollection (Dictionary α) := ⟨empty⟩

/-- The dictionary without entries is the default. -/
instance : Inhabited (Dictionary α) := ⟨empty⟩

/-- The first value under a name in a list of entries, as `Dictionary.get?` looks it up. -/
def lookup? (name : String) : List (String × α) → Option α
  | [] => none
  | (key, value) :: rest => if name = key then some value else lookup? name rest

/-- A list of entries with a value put under a name: in the place of the value that the name had, or
else before the first greater name. The list is to be in order; `Dictionary.insert` calls this on
one that is. -/
def put (name : String) (value : α) : List (String × α) → List (String × α)
  | [] => [(name, value)]
  | (key, old) :: rest =>
      if name = key then (name, value) :: rest
      else if name < key then (name, value) :: (key, old) :: rest
      else (key, old) :: put name value rest

/-- Putting a value adds no other name: an entry of `put name value entries` is `(name, value)` or
one of `entries`. -/
theorem mem_put {name : String} {value : α} {entries : List (String × α)} {entry : String × α}
    (mem : entry ∈ put name value entries) : entry = (name, value) ∨ entry ∈ entries := by
  induction entries with
  | nil => exact .inl (List.mem_singleton.mp mem)
  | cons first rest ih =>
      obtain ⟨key, old⟩ := first
      simp only [put] at mem
      split at mem
      · rcases List.mem_cons.mp mem with here | later
        · exact .inl here
        · exact .inr (List.mem_cons_of_mem _ later)
      · split at mem
        · rcases List.mem_cons.mp mem with here | later
          · exact .inl here
          · exact .inr later
        · rcases List.mem_cons.mp mem with here | later
          · exact .inr (here ▸ List.mem_cons_self)
          · exact (ih later).imp_right (List.mem_cons_of_mem _)

/-- Names that are neither smaller nor equal are greater: the last branch of `put`. -/
theorem lt_of_not_lt_of_ne {a b : String} (apart : ¬a = b) (above : ¬a < b) : b < a := by
  rcases String.le_total a b with le | le
  · exact absurd (String.le_antisymm le (String.not_lt.mp above)) apart
  · exact Decidable.byContradiction fun below =>
      apart (String.le_antisymm (String.not_lt.mp below) le)

/-- Putting a value keeps the order, as `Dictionary.insert` needs it. -/
theorem ascending_put (name : String) (value : α) {entries : List (String × α)}
    (ascending : entries.Pairwise (·.1 < ·.1)) :
    (put name value entries).Pairwise (·.1 < ·.1) := by
  induction entries with
  | nil => exact List.pairwise_singleton _ _
  | cons first rest ih =>
      obtain ⟨key, old⟩ := first
      obtain ⟨greater, tail⟩ := List.pairwise_cons.mp ascending
      simp only [put]
      split
      · next same => subst same; exact List.pairwise_cons.mpr ⟨greater, tail⟩
      · next apart =>
          split
          · next below =>
              refine List.pairwise_cons.mpr ⟨fun entry mem => ?_, ascending⟩
              rcases List.mem_cons.mp mem with here | later
              · exact here ▸ below
              · exact String.lt_trans below (greater entry later)
          · next above =>
              refine List.pairwise_cons.mpr ⟨fun entry mem => ?_, ih tail⟩
              rcases mem_put mem with here | later
              · exact here ▸ lt_of_not_lt_of_ne apart above
              · exact greater entry later

/-- The value under a name, `none` if the name is not bound. -/
def get? (d : Dictionary α) (name : String) : Option α :=
  lookup? name d.entries

/-- Whether `get?` finds a value under a name. -/
def contains (d : Dictionary α) (name : String) : Bool :=
  (d.get? name).isSome

/-- The dictionary with `value` put under `name`, in place of any value that the name had. -/
def insert (d : Dictionary α) (name : String) (value : α) : Dictionary α :=
  ⟨put name value d.entries, ascending_put name value d.ascending⟩

/-- The number of `entries`. -/
def size (d : Dictionary α) : Nat :=
  d.entries.length

/-- The names of the `entries`, in order. -/
def names (d : Dictionary α) : List String :=
  d.entries.map (·.1)

/-- The dictionary of a list of entries, by `insert` from left to right; of several under one name
the last one counts. -/
def ofList (entries : List (String × α)) : Dictionary α :=
  entries.foldl (fun d entry => d.insert entry.1 entry.2) empty

/-! ## Laws of `insert` and `get?` -/

/-- Nothing is found in `empty`. -/
@[simp] theorem get?_empty (name : String) : (empty : Dictionary α).get? name = none := rfl

/-- The value that `insert` puts under a name is found there. -/
@[simp] theorem get?_insert_self (d : Dictionary α) (name : String) (value : α) :
    (d.insert name value).get? name = some value := by
  obtain ⟨entries, ascending⟩ := d
  simp only [get?, insert]
  clear ascending
  induction entries with
  | nil => simp [put, lookup?]
  | cons first rest ih =>
      obtain ⟨key, old⟩ := first
      simp only [put]
      split
      · simp [lookup?]
      · next apart =>
          split
          · simp [lookup?]
          · simpa [lookup?, apart] using ih

/-- Putting a value under `name` changes nothing under any `other` name. -/
theorem get?_insert_of_ne (d : Dictionary α) {name other : String} (apart : other ≠ name)
    (value : α) : (d.insert name value).get? other = d.get? other := by
  obtain ⟨entries, ascending⟩ := d
  simp only [get?, insert]
  clear ascending
  induction entries with
  | nil => simp [put, lookup?, apart]
  | cons first rest ih =>
      obtain ⟨key, old⟩ := first
      simp only [put]
      split
      · next same => subst same; simp [lookup?, apart]
      · split
        · simp [lookup?, apart]
        · simp [lookup?, ih]

/-- A name that had no value adds one entry to the `size`. -/
theorem size_insert_of_get?_eq_none (d : Dictionary α) {name : String}
    (free : d.get? name = none) (value : α) : (d.insert name value).size = d.size + 1 := by
  obtain ⟨entries, ascending⟩ := d
  simp only [get?, insert, size] at free ⊢
  clear ascending
  induction entries with
  | nil => simp [put]
  | cons first rest ih =>
      obtain ⟨key, old⟩ := first
      simp only [lookup?] at free
      split at free
      · cases free
      · next apart =>
          simp only [put, apart, if_false]
          split
          · rfl
          · simp [ih free]

/-! ### Names -/

/-- The dictionary `empty` has no names. -/
@[simp] theorem names_empty : (empty : Dictionary α).names = [] := rfl

/-- A name is among the `names` exactly if the dictionary `contains` it. -/
theorem mem_names_iff {d : Dictionary α} {name : String} :
    name ∈ d.names ↔ d.contains name = true := by
  obtain ⟨entries, ascending⟩ := d
  simp only [names, contains, get?]
  clear ascending
  induction entries with
  | nil => simp [lookup?]
  | cons first rest ih =>
      obtain ⟨key, old⟩ := first
      rw [List.map_cons, List.mem_cons, ih, lookup?]
      split
      · next same => simp [same]
      · next apart => simp [apart]

/-- The dictionary `contains` a name exactly if `get?` finds a value under it. -/
theorem contains_iff {d : Dictionary α} {name : String} :
    d.contains name = true ↔ ∃ value, d.get? name = some value :=
  Option.isSome_iff_exists

/-- After `d.insert name value`, what is bound is `name` and what `d` binds. -/
theorem contains_insert {d : Dictionary α} {name other : String} {value : α} :
    (d.insert name value).contains other = true ↔ other = name ∨ d.contains other = true := by
  by_cases same : other = name
  · subst same
    simp [contains]
  · simp [contains, get?_insert_of_ne d same, same]

/-- The dictionary `ofList entries` binds the names of `entries`, and no others. -/
theorem mem_names_ofList {entries : List (String × α)} {name : String} :
    name ∈ (ofList entries).names ↔ name ∈ entries.map (·.1) := by
  have bound (d : Dictionary α) :
      (entries.foldl (fun d entry => d.insert entry.1 entry.2) d).contains name = true ↔
        d.contains name = true ∨ name ∈ entries.map (·.1) := by
    induction entries generalizing d with
    | nil => simp
    | cons first rest ih =>
        rw [List.foldl_cons, ih, contains_insert, List.map_cons, List.mem_cons, or_left_comm,
          or_assoc]
  rw [mem_names_iff, ofList, bound]
  simp [contains]

/-- The `names` of a dictionary are in ascending order. -/
theorem ascending_names (d : Dictionary α) : d.names.Pairwise (· < ·) :=
  List.pairwise_map.mpr d.ascending

/-- No name comes twice in `names`: they ascend. -/
theorem nodup_names (d : Dictionary α) : d.names.Nodup := by
  refine d.ascending_names.imp fun {a b} below => ?_
  rintro rfl
  exact String.lt_irrefl a below

/-- Two dictionaries with values under the same names list them alike: `names` is determined by
`contains`. -/
theorem names_eq_of_contains {β : Type} {d : Dictionary α} {e : Dictionary β}
    (same : ∀ name, d.contains name = true ↔ e.contains name = true) : d.names = e.names := by
  have members : d.names.Perm e.names := by
    refine (List.perm_ext_iff_of_nodup d.nodup_names e.nodup_names).mpr fun name => ?_
    rw [mem_names_iff, mem_names_iff, same]
  refine members.eq_of_pairwise (fun a b _ _ below above => ?_) d.ascending_names e.ascending_names
  exact absurd (String.lt_trans below above) (String.lt_irrefl a)

/-- What a dictionary `contains` depends on its `names` only. -/
theorem contains_eq_of_names {β : Type} {d : Dictionary α} {e : Dictionary β}
    (same : d.names = e.names) (name : String) : d.contains name = e.contains name := by
  rw [Bool.eq_iff_iff, ← mem_names_iff, same, mem_names_iff]

/-- A fresh name is added to the names: those of `d.insert name value` are `name :: d.names` in some
order. -/
theorem perm_names_insert {d : Dictionary α} {name : String} (free : d.get? name = none)
    (value : α) : (d.insert name value).names.Perm (name :: d.names) := by
  have new : name ∉ d.names := by
    rw [mem_names_iff, contains, free]
    exact Bool.false_ne_true
  refine (List.perm_ext_iff_of_nodup (nodup_names _) (List.nodup_cons.mpr
    ⟨new, d.nodup_names⟩)).mpr fun other => ?_
  rw [List.mem_cons, mem_names_iff, contains_insert, mem_names_iff]

end Dictionary

end CypherQuery
