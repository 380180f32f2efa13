import Tabletop.Entries

/-!
# Tabletop.Proofs.EntryLookup

What is found under a key after values have been put under keys.

* Putting a value changes what is found under its key, and nothing else
  (`lookup_put`).  So the last of several values for a key is found
  (`lookup_ofList`).
* Entries can be left out by their keys before values are put instead of after
  (`filter_ofList`).
* No key occurs twice (`nodup_keys_ofList`), so entries can be left out without
  another one for the same key coming up in their place
  (`lookup_filterMap_some`).
-/

namespace Tabletop.Entries

variable {α β γ : Type} [BEq α] [LawfulBEq α]

omit [LawfulBEq α] in
theorem lookup_cons (k : α) (e : α × β) (es : List (α × β)) :
    (e :: es).lookup k = if k == e.1 then some e.2 else es.lookup k := by
  obtain ⟨k', v⟩ := e
  rw [List.lookup_cons]
  cases k == k' <;> rfl

/-- Something is found under the keys that occur. -/
theorem isSome_lookup_iff {k : α} {es : List (α × β)} :
    (es.lookup k).isSome ↔ k ∈ es.map Prod.fst := by
  rw [List.lookup_isSome_iff, List.mem_map]
  simp only [beq_iff_eq, eq_comm (a := k)]

theorem lookup_eq_none_of_not_mem {k : α} {es : List (α × β)} (h : k ∉ es.map Prod.fst) :
    es.lookup k = none := by
  rwa [← isSome_lookup_iff, Option.not_isSome_iff_eq_none] at h

/-! ## Putting one value -/

theorem any_key_iff (k : α) (es : List (α × β)) :
    (es.any fun e => e.1 == k) = true ↔ k ∈ es.map Prod.fst := by
  simp

omit [LawfulBEq α] in
/-- The keys stay, and a new one comes last. -/
theorem keys_put (es : List (α × β)) (k : α) (v : β) :
    (put (· == ·) es k v).map Prod.fst =
      if es.any (fun e => e.1 == k) then es.map Prod.fst else es.map Prod.fst ++ [k] := by
  unfold put
  split
  · rw [List.map_map]
    refine List.map_congr_left fun e _ => ?_
    simp only [Function.comp]
    split <;> rfl
  · simp

theorem nodup_keys_put {es : List (α × β)} (h : (es.map Prod.fst).Nodup) (k : α) (v : β) :
    ((put (· == ·) es k v).map Prod.fst).Nodup := by
  rw [keys_put]
  split
  · exact h
  · next hnew =>
      rw [any_key_iff] at hnew
      exact List.nodup_append.mpr ⟨h, by simp, by rintro a ha b hb rfl; simp_all⟩

/-- Where a value is replaced, nothing else is. -/
theorem lookup_replace (es : List (α × β)) (k k' : α) (v : β) :
    (es.map fun e => if e.1 == k then (e.1, v) else e).lookup k' =
      if k' == k then (es.lookup k').map fun _ => v else es.lookup k' := by
  induction es with
  | nil => simp
  | cons e es ih =>
      rw [List.map_cons, lookup_cons, lookup_cons, ih]
      by_cases hk : k' == k
      · have heq := eq_of_beq hk
        subst heq
        by_cases he : k' == e.1
        · have heq := eq_of_beq he
          simp [← heq]
        · have hne : (e.1 == k') = false := by
            rw [beq_eq_false_iff_ne]
            exact fun heq => he (beq_iff_eq.mpr heq.symm)
          simp [hne, he]
      · have hkey : (if e.1 == k then (e.1, v) else e).1 = e.1 := by split <;> rfl
        rw [hkey, if_neg hk, if_neg hk]
        split
        · next he =>
            have hne : ¬(e.1 == k) = true := fun h => hk (eq_of_beq he ▸ h)
            rw [if_neg hne]
        · rfl

/-- A value is found under the key that it is put under, and what is found under
other keys does not change. -/
theorem lookup_put (es : List (α × β)) (k k' : α) (v : β) :
    (put (· == ·) es k v).lookup k' = if k' == k then some v else es.lookup k' := by
  unfold put
  split
  · next hold =>
      rw [lookup_replace]
      split
      · next hk =>
          rw [any_key_iff, ← eq_of_beq hk, ← isSome_lookup_iff] at hold
          obtain ⟨w, hw⟩ := Option.isSome_iff_exists.mp hold
          rw [hw, Option.map_some]
      · rfl
  · next hnew =>
      rw [any_key_iff] at hnew
      rw [List.lookup_append, lookup_cons, List.lookup_nil]
      split
      · next hk =>
          rw [eq_of_beq hk, lookup_eq_none_of_not_mem hnew, Option.none_or]
      · exact Option.or_none

/-! ## Putting several -/

/-- The last value put under a key is found. -/
theorem lookup_putAll (es new : List (α × β)) (k : α) :
    (putAll (· == ·) es new).lookup k = (new.reverse.lookup k).or (es.lookup k) := by
  induction new generalizing es with
  | nil => rfl
  | cons e new ih =>
      have hput := ih (put (· == ·) es e.1 e.2)
      rw [putAll, List.foldl_cons, ← putAll, hput, lookup_put, List.reverse_cons,
        List.lookup_append, Option.or_assoc, lookup_cons, List.lookup_nil]
      split <;> rfl

theorem lookup_ofList (new : List (α × β)) (k : α) :
    (ofList (· == ·) new).lookup k = new.reverse.lookup k := by
  rw [ofList, lookup_putAll, List.lookup_nil, Option.or_none]

theorem nodup_keys_putAll {es : List (α × β)} (h : (es.map Prod.fst).Nodup)
    (new : List (α × β)) : ((putAll (· == ·) es new).map Prod.fst).Nodup := by
  induction new generalizing es with
  | nil => exact h
  | cons e new ih => exact ih (nodup_keys_put h e.1 e.2)

theorem nodup_keys_ofList (new : List (α × β)) :
    ((ofList (· == ·) new).map Prod.fst).Nodup := by
  have hnil : (([] : List (α × β)).map Prod.fst).Nodup := List.nodup_nil
  exact nodup_keys_putAll hnil new

/-! ## Leaving entries out -/

omit [LawfulBEq α] in
/-- Where a value is replaced, the keys stay. -/
theorem filter_replace (p : α → Bool) (es : List (α × β)) (k : α) (v : β) :
    (es.map fun e => if e.1 == k then (e.1, v) else e).filter (fun e => p e.1) =
      (es.filter fun e => p e.1).map fun e => if e.1 == k then (e.1, v) else e := by
  rw [List.filter_map]
  congr 1
  refine List.filter_congr fun e _ => ?_
  simp only [Function.comp]
  split <;> rfl

/-- Entries may be left out by their keys before a value is put instead of after. -/
theorem filter_put (p : α → Bool) (es : List (α × β)) (k : α) (v : β) :
    (put (· == ·) es k v).filter (fun e => p e.1) =
      if p k then put (· == ·) (es.filter fun e => p e.1) k v else es.filter fun e => p e.1 := by
  have hkey : ∀ e : α × β, p e.1 = true → ¬p k = true → ¬(e.1 == k) = true :=
    fun e he hk heq => hk (eq_of_beq heq ▸ he)
  by_cases hk : p k = true
  · have hany : (es.filter fun e => p e.1).any (fun e => e.1 == k) = es.any fun e => e.1 == k := by
      rw [List.any_filter]
      refine congrArg es.any (funext fun e => ?_)
      by_cases heq : (e.1 == k) = true
      · rw [eq_of_beq heq, hk, Bool.true_and]
      · rw [Bool.eq_false_iff.mpr heq, Bool.and_false]
    rw [if_pos hk, put, put, hany]
    split
    · exact filter_replace p es k v
    · simp [hk]
  · rw [if_neg hk, put]
    split
    · rw [filter_replace]
      refine (List.map_congr_left fun e he => ?_).trans (List.map_id _)
      exact if_neg (hkey e ((List.mem_filter.mp he).2) hk)
    · simp [hk]

theorem filter_putAll (p : α → Bool) (es new : List (α × β)) :
    (putAll (· == ·) es new).filter (fun e => p e.1) =
      putAll (· == ·) (es.filter fun e => p e.1) (new.filter fun e => p e.1) := by
  induction new generalizing es with
  | nil => rfl
  | cons e new ih =>
      have hput := ih (put (· == ·) es e.1 e.2)
      rw [putAll, List.foldl_cons, ← putAll, hput, filter_put, List.filter_cons]
      split <;> rfl

theorem filter_ofList (p : α → Bool) (new : List (α × β)) :
    (ofList (· == ·) new).filter (fun e => p e.1) =
      ofList (· == ·) (new.filter fun e => p e.1) :=
  filter_putAll p [] new

theorem putAll_of_single_key {e : α × β} {new : List (α × β)} (h : ∀ e' ∈ new, e'.1 = e.1) :
    putAll (· == ·) [e] new = [new.getLast?.getD e] := by
  induction new generalizing e with
  | nil => rfl
  | cons e' new ih =>
      have he' : e'.1 = e.1 := h e' List.mem_cons_self
      have hput : put (· == ·) [e] e'.1 e'.2 = [e'] := by simp [put, ← he']
      have hrest := ih fun e'' he'' => (h e'' (List.mem_cons_of_mem _ he'')).trans he'.symm
      rw [putAll, List.foldl_cons, hput, ← putAll, hrest, List.getLast?_cons, Option.getD_some]

/-- Of several values for a single key the last is kept. -/
theorem ofList_of_single_key {new : List (α × β)} (h : ∀ e ∈ new, ∀ e' ∈ new, e.1 = e'.1) :
    ofList (· == ·) new = new.getLast?.toList := by
  cases new with
  | nil => rfl
  | cons e new =>
      have hrest : ∀ e' ∈ new, e'.1 = e.1 := fun e' he' =>
        h e' (List.mem_cons_of_mem _ he') e List.mem_cons_self
      rw [List.getLast?_cons]
      exact putAll_of_single_key hrest

/-- Where keys are made of other keys, the first entry whose key becomes the one
looked for is found. -/
theorem lookup_filterMap_key (f : γ → Option α) (es : List (γ × β)) (k : α) :
    (es.filterMap fun e => (f e.1).map fun k => (k, e.2)).lookup k =
      (es.find? fun e => f e.1 == some k).map Prod.snd := by
  induction es with
  | nil => rfl
  | cons e es ih =>
      cases hkey : f e.1 with
      | none => simp [hkey, ih]
      | some k' =>
          have hsame : (some k' == some k) = (k == k') := by
            rw [Option.some_beq_some, Bool.beq_comm]
          rw [List.filterMap_cons_some (b := (k', e.2)) (by simp [hkey]), lookup_cons, ih,
            List.find?_cons, hkey, hsame]
          cases k == k' <;> rfl

/-- Where no key occurs twice, leaving out the entries without a value leaves
their keys without one. -/
theorem lookup_filterMap_some {es : List (α × Option β)} (h : (es.map Prod.fst).Nodup)
    (f : β → γ) (k : α) :
    (es.filterMap fun e => e.2.map fun v => (e.1, f v)).lookup k =
      (es.lookup k).bind fun v => v.map f := by
  induction es with
  | nil => rfl
  | cons e es ih =>
      obtain ⟨k', v⟩ := e
      obtain ⟨hk', hes⟩ := List.nodup_cons.mp h
      rw [lookup_cons]
      cases v with
      | none =>
          rw [List.filterMap_cons_none rfl, ih hes]
          split
          · next hk =>
              rw [eq_of_beq hk, lookup_eq_none_of_not_mem hk']
              rfl
          · rfl
      | some v =>
          simp only [List.filterMap_cons, Option.map_some, lookup_cons, ih hes]
          split <;> rfl

end Tabletop.Entries
