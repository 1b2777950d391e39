import Mathlib.Data.List.Nodup
import Mathlib.Data.Set.Card
import Mathlib.Logic.Function.Basic

/-!
# Lists of entries with keys

A list of entries whose keys are distinct stands for a partial map. Appending an entry, replacing
one and erasing one update the map, and the length counts the keys that are bound.
-/

namespace SeriesxEmu.KeyedLists

variable {Key Value : Type} [BEq Key] {entries : List (Key × Value)} {key : Key}

/-- The value of the first entry with this key. -/
def lookup (entries : List (Key × Value)) (key : Key) : Option Value :=
  (entries.find? (fun entry => entry.1 == key)).map Prod.snd

/-- The keys of a list. -/
def keys (entries : List (Key × Value)) : List Key := entries.map Prod.fst

variable [LawfulBEq Key] [DecidableEq Key]

/-- The first entry is looked up first. -/
theorem lookup_cons (entry : Key × Value) (entries : List (Key × Value)) (key : Key) :
    lookup (entry :: entries) key = if entry.1 = key then some entry.2 else lookup entries key := by
  by_cases same : entry.1 = key
  · simp [lookup, same]
  · simp [lookup, same]

/-- A key is not found when it is none of the keys. -/
theorem lookup_eq_none : lookup entries key = none ↔ key ∉ keys entries := by
  induction entries with
  | nil => exact iff_of_true rfl List.not_mem_nil
  | cons entry entries inductionHypothesis =>
    rw [lookup_cons, keys, List.map_cons, List.mem_cons, not_or, ← keys, ← inductionHypothesis]
    by_cases same : entry.1 = key
    · simp [same]
    · simp [same, Ne.symm same]

/-- A new entry behind the others. -/
theorem lookup_append (free : lookup entries key = none) (value : Value) :
    lookup (entries ++ [(key, value)]) = Function.update (lookup entries) key (some value) := by
  funext other
  induction entries with
  | nil =>
    rw [List.nil_append, lookup_cons, Function.update_apply]
    simp only [eq_comm]
  | cons entry entries inductionHypothesis =>
    rw [lookup_cons] at free
    by_cases same : entry.1 = key
    · rw [if_pos same] at free
      cases free
    · rw [if_neg same] at free
      rw [List.cons_append, lookup_cons, inductionHypothesis free, Function.update_apply, Function.update_apply,
        lookup_cons]
      by_cases here : other = key
      · subst here
        rw [if_neg same, if_pos rfl, if_pos rfl]
      · rw [if_neg here, if_neg here]

/-- The first entry with the key is replaced. -/
theorem lookup_set {index : Nat} (found : entries.findIdx? (fun entry => entry.1 == key) = some index) (value : Value) :
    lookup (entries.set index (key, value)) = Function.update (lookup entries) key (some value) ∧
      keys (entries.set index (key, value)) = keys entries := by
  induction entries generalizing index with
  | nil => cases found
  | cons entry entries inductionHypothesis =>
    rw [List.findIdx?_cons] at found
    by_cases same : entry.1 = key
    · rw [if_pos (beq_iff_eq.mpr same)] at found
      obtain rfl := Option.some.inj found
      refine ⟨funext fun other => ?_, by rw [List.set_cons_zero, keys, keys, List.map_cons, List.map_cons, same]⟩
      rw [List.set_cons_zero, lookup_cons, Function.update_apply, lookup_cons]
      by_cases here : other = key
      · rw [if_pos here, if_pos here.symm]
      · rw [if_neg here, if_neg (Ne.symm here), if_neg (fun again => here (again.symm.trans same))]
    · rw [if_neg (by rwa [beq_iff_eq])] at found
      obtain ⟨earlier, place, rfl⟩ := Option.map_eq_some_iff.mp found
      obtain ⟨looked, kept⟩ := inductionHypothesis place
      refine ⟨funext fun other => ?_, ?_⟩
      · rw [List.set_cons_succ, lookup_cons, looked, Function.update_apply, Function.update_apply, lookup_cons]
        by_cases here : other = key
        · subst here
          rw [if_neg same, if_pos rfl, if_pos rfl]
        · rw [if_neg here, if_neg here]
      · rw [List.set_cons_succ, keys, List.map_cons, ← keys, kept]
        rfl

/-- The first entry with the key is erased, and there is no other. -/
theorem lookup_eraseP (distinct : (keys entries).Nodup) (key : Key) :
    lookup (entries.eraseP (fun entry => entry.1 == key)) = Function.update (lookup entries) key none := by
  funext other
  induction entries with
  | nil =>
    rw [List.eraseP_nil, Function.update_apply]
    split <;> rfl
  | cons entry entries inductionHypothesis =>
    obtain ⟨fresh, distinct⟩ := List.nodup_cons.mp distinct
    rw [Function.update_apply, lookup_cons]
    by_cases same : entry.1 = key
    · have erased : (entry :: entries).eraseP (fun entry => entry.1 == key) = entries :=
        List.eraseP_cons_of_pos (beq_iff_eq.mpr same)
      rw [erased]
      by_cases here : other = key
      · rw [if_pos here, here, ← same]
        exact lookup_eq_none.mpr fresh
      · rw [if_neg here, if_neg (fun again => here (again.symm.trans same))]
    · have kept : (entry :: entries).eraseP (fun entry => entry.1 == key) =
          entry :: entries.eraseP (fun entry => entry.1 == key) :=
        List.eraseP_cons_of_neg (by rwa [beq_iff_eq])
      rw [kept, lookup_cons, inductionHypothesis distinct, Function.update_apply]
      by_cases here : other = key
      · subst here
        rw [if_neg same, if_pos rfl, if_pos rfl]
      · rw [if_neg here, if_neg here]

omit [LawfulBEq Key] [DecidableEq Key] in
/-- Erasing an entry leaves distinct keys. -/
theorem keys_eraseP (distinct : (keys entries).Nodup) (key : Key) :
    (keys (entries.eraseP (fun entry => entry.1 == key))).Nodup :=
  distinct.sublist (List.eraseP_sublist.map Prod.fst)

/-- So does adding one with a free key. -/
theorem keys_append (distinct : (keys entries).Nodup) (free : lookup entries key = none) (value : Value) :
    (keys (entries ++ [(key, value)])).Nodup := by
  rw [keys, List.map_append, List.map_singleton, ← keys]
  exact List.Nodup.append distinct (List.nodup_singleton key) (by simpa using lookup_eq_none.mp free)

/-- The length counts the keys that are bound. -/
theorem length_eq_ncard (distinct : (keys entries).Nodup) :
    entries.length = {key | lookup entries key ≠ none}.ncard := by
  have bound : {key | lookup entries key ≠ none} = ((keys entries).toFinset : Set Key) := by
    ext key
    rw [Set.mem_ofPred_eq, Finset.mem_coe, List.mem_toFinset, ne_eq, lookup_eq_none, not_not]
  rw [bound, Set.ncard_coe_finset, List.toFinset_card_of_nodup distinct, keys, List.length_map]

end SeriesxEmu.KeyedLists
