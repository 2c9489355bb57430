set_option autoImplicit false

/-
Values by their keys, in the order in which the keys came in. A value for a key that is there
already takes the place of the one before.
-/
namespace Criteria

structure KeyedList (α : Type) where
  entries : List (String × α)
  distinct : (entries.map Prod.fst).Nodup

namespace KeyedList

variable {α : Type}

def empty : KeyedList α := ⟨[], .nil⟩

def keys (l : KeyedList α) : List String := l.entries.map Prod.fst

def values (l : KeyedList α) : List α := l.entries.map Prod.snd

def size (l : KeyedList α) : Nat := l.entries.length

def get? (l : KeyedList α) (key : String) : Option α := l.entries.lookup key

def contains (l : KeyedList α) (key : String) : Bool := (l.get? key).isSome

/-- Entries with a value for a key, at the place of the key or else behind the others. -/
def entriesWith (key : String) (value : α) : List (String × α) → List (String × α)
  | [] => [(key, value)]
  | entry :: more =>
    if entry.1 = key then (key, value) :: more else entry :: entriesWith key value more

theorem map_fst_entriesWith (key : String) (value : α) (entries : List (String × α)) :
    (entriesWith key value entries).map Prod.fst =
      if key ∈ entries.map Prod.fst then entries.map Prod.fst
      else entries.map Prod.fst ++ [key] := by
  induction entries with
  | nil => rfl
  | cons entry more ih =>
      by_cases here : entry.1 = key
      · simp [entriesWith, here]
      · have apart : key ≠ entry.1 := Ne.symm here
        simp only [entriesWith, if_neg here, List.map_cons, ih, List.mem_cons, apart, false_or]
        split <;> rfl

theorem entriesWith_distinct {entries : List (String × α)}
    (distinct : (entries.map Prod.fst).Nodup) (key : String) (value : α) :
    ((entriesWith key value entries).map Prod.fst).Nodup := by
  rw [map_fst_entriesWith]
  split
  · exact distinct
  · rename_i fresh
    rw [List.nodup_append]
    refine ⟨distinct, by simp, ?_⟩
    intro k listed other last same
    rw [same, List.mem_singleton.mp last] at listed
    exact fresh listed

def set (l : KeyedList α) (key : String) (value : α) : KeyedList α :=
  ⟨entriesWith key value l.entries, entriesWith_distinct l.distinct key value⟩

/-- Sets a value unless the key has one. -/
def setNew (l : KeyedList α) (key : String) (value : α) : KeyedList α :=
  if l.contains key then l else l.set key value

theorem get?_eq_some_iff {l : KeyedList α} {key : String} {value : α} :
    l.get? key = some value ↔ (key, value) ∈ l.entries := by
  obtain ⟨entries, distinct⟩ := l
  simp only [get?]
  induction entries with
  | nil => simp
  | cons entry more ih =>
      obtain ⟨k, v⟩ := entry
      rw [List.map_cons, List.nodup_cons] at distinct
      obtain ⟨fresh, distinct⟩ := distinct
      rw [List.lookup_cons, List.mem_cons, Prod.mk.injEq]
      by_cases here : key = k
      · subst here
        have gone : (key, value) ∉ more := by
          intro later
          exact fresh (List.mem_map.mpr ⟨_, later, rfl⟩)
        simp [gone, eq_comm]
      · rw [beq_eq_false_iff_ne.mpr here]
        simp [here, ih distinct]

theorem isSome_get?_iff {l : KeyedList α} {key : String} : (l.get? key).isSome ↔ key ∈ l.keys := by
  rw [Option.isSome_iff_exists, keys, List.mem_map]
  constructor
  · rintro ⟨value, found⟩
    exact ⟨(key, value), get?_eq_some_iff.mp found, rfl⟩
  · rintro ⟨⟨_, value⟩, listed, rfl⟩
    exact ⟨value, get?_eq_some_iff.mpr listed⟩

theorem map_get?_keys (l : KeyedList α) : l.keys.map l.get? = l.values.map some := by
  rw [keys, values, List.map_map, List.map_map]
  apply List.map_congr_left
  intro entry listed
  exact get?_eq_some_iff.mpr listed

theorem keys_set (l : KeyedList α) (key : String) (value : α) :
    (l.set key value).keys = if key ∈ l.keys then l.keys else l.keys ++ [key] :=
  map_fst_entriesWith key value l.entries

theorem get?_set (l : KeyedList α) (key : String) (value : α) (other : String) :
    (l.set key value).get? other = if other = key then some value else l.get? other := by
  obtain ⟨entries, distinct⟩ := l
  simp only [get?, set]
  induction entries with
  | nil =>
      rw [entriesWith, List.lookup_cons, List.lookup_nil]
      by_cases same : other = key
      · simp [same]
      · rw [beq_eq_false_iff_ne.mpr same, if_neg same]
  | cons entry more ih =>
      obtain ⟨k, v⟩ := entry
      rw [List.map_cons, List.nodup_cons] at distinct
      rw [entriesWith]
      by_cases here : k = key
      · subst here
        rw [if_pos rfl, List.lookup_cons, List.lookup_cons]
        by_cases same : other = k
        · simp [same]
        · rw [beq_eq_false_iff_ne.mpr same, if_neg same]
      · rw [if_neg here, List.lookup_cons, List.lookup_cons, ih distinct.2]
        by_cases same : other = k
        · simp [same, here]
        · rw [beq_eq_false_iff_ne.mpr same]

/-- The value of a new key comes behind the others. -/
theorem values_set_of_new {l : KeyedList α} {key : String} (new : l.get? key = none) (value : α) :
    (l.set key value).values = l.values ++ [value] := by
  obtain ⟨entries, distinct⟩ := l
  simp only [get?, set, values] at new ⊢
  induction entries with
  | nil => rfl
  | cons entry more ih =>
      obtain ⟨k, v⟩ := entry
      rw [List.map_cons, List.nodup_cons] at distinct
      rw [List.lookup_cons] at new
      by_cases here : key = k
      · simp [here] at new
      · rw [beq_eq_false_iff_ne.mpr here] at new
        rw [entriesWith, if_neg (Ne.symm here), List.map_cons, ih distinct.2 new]
        rfl

theorem get?_setNew (l : KeyedList α) (key : String) (value : α) (other : String) :
    (l.setNew key value).get? other =
      if other = key then some ((l.get? key).getD value) else l.get? other := by
  unfold setNew contains
  cases found : l.get? key with
  | none => exact l.get?_set key value other
  | some old =>
      rw [if_pos Option.isSome_some]
      by_cases same : other = key
      · rw [same, found, if_pos rfl, Option.getD_some]
      · rw [if_neg same]

/-- Where each value tells its key, looking a key up is a search among the values. -/
theorem get?_eq_find?_values {l : KeyedList α} {keyOf : α → String}
    (told : ∀ key value, l.get? key = some value → keyOf value = key) (key : String) :
    l.get? key = l.values.find? fun value => keyOf value == key := by
  have each : ∀ entry ∈ l.entries, keyOf entry.2 = entry.1 := by
    intro entry listed
    exact told entry.1 entry.2 (get?_eq_some_iff.mpr listed)
  rw [get?, values]
  generalize l.entries = entries at each
  induction entries with
  | nil => rfl
  | cons entry more ih =>
      obtain ⟨first, others⟩ := List.forall_mem_cons.mp each
      rw [List.lookup_cons, List.map_cons, List.find?_cons, first, ih others]
      by_cases here : key = entry.1
      · simp [here]
      · rw [beq_eq_false_iff_ne.mpr here, beq_eq_false_iff_ne.mpr (Ne.symm here)]

end KeyedList
end Criteria
