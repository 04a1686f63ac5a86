/-! Lists of pairs as finite maps.

A key stands at most once in what `put` builds: putting under a key that is there replaces
its value where it stands, putting under a new key adds it at the end. So the order is that
of the first appearances, and `get?` answers with what was put last. -/
namespace LookupTap.Keyed

variable {κ ν : Type} [DecidableEq κ]

def get? (k : κ) : List (κ × ν) → Option ν
  | [] => none
  | (k', v) :: rest => if k = k' then some v else get? k rest

def put (k : κ) (v : ν) : List (κ × ν) → List (κ × ν)
  | [] => [(k, v)]
  | (k', v') :: rest => if k = k' then (k, v) :: rest else (k', v') :: put k v rest

def has (k : κ) (pairs : List (κ × ν)) : Bool := (get? k pairs).isSome

/-- The map that pairs make, put one after the other. -/
def collect (pairs : List (κ × ν)) : List (κ × ν) :=
  pairs.foldl (fun known pair => put pair.1 pair.2 known) []

/-- What was put is there, and nothing else has changed. -/
theorem get?_put (k k' : κ) (v : ν) (pairs : List (κ × ν)) :
    get? k' (put k v pairs) = if k' = k then some v else get? k' pairs := by
  induction pairs with
  | nil => simp [put, get?]
  | cons pair rest ih =>
    obtain ⟨key, value⟩ := pair
    by_cases h : k = key
    · subst h
      by_cases h' : k' = k <;> simp [put, get?, h']
    · by_cases h' : k' = key
      · subst h'
        have : ¬ k' = k := fun e => h e.symm
        simp [put, get?, h, this]
      · simp [put, get?, h, h', ih]

theorem mem_of_get? {k : κ} {v : ν} {pairs : List (κ × ν)} (h : get? k pairs = some v) :
    (k, v) ∈ pairs := by
  induction pairs with
  | nil => cases h
  | cons pair rest ih =>
    unfold get? at h
    split at h
    · next heq =>
      cases h
      exact heq ▸ List.mem_cons_self
    · exact List.mem_cons_of_mem _ (ih h)

theorem get?_eq_none_iff {k : κ} {pairs : List (κ × ν)} :
    get? k pairs = none ↔ k ∉ pairs.map Prod.fst := by
  induction pairs with
  | nil => simp [get?]
  | cons pair rest ih =>
    obtain ⟨key, value⟩ := pair
    by_cases h : k = key <;> simp [get?, h, ih]

/-- Whatever is in a list after putting has just been put there or was there before. -/
theorem mem_put {k : κ} {v : ν} {pairs : List (κ × ν)} {pair : κ × ν}
    (h : pair ∈ put k v pairs) : pair = (k, v) ∨ pair ∈ pairs := by
  induction pairs with
  | nil => exact .inl (List.mem_singleton.mp h)
  | cons first rest ih =>
    unfold put at h
    split at h
    · rcases List.mem_cons.mp h with hnew | hold
      · exact .inl hnew
      · exact .inr (List.mem_cons_of_mem _ hold)
    · rcases List.mem_cons.mp h with hfirst | hrest
      · exact .inr (hfirst ▸ List.mem_cons_self)
      · exact (ih hrest).imp_right (List.mem_cons_of_mem _)

/-- Putting keeps keys apart. -/
theorem nodup_put (k : κ) (v : ν) {pairs : List (κ × ν)} (h : (pairs.map Prod.fst).Nodup) :
    ((put k v pairs).map Prod.fst).Nodup := by
  induction pairs with
  | nil => exact List.nodup_cons.mpr ⟨List.not_mem_nil, List.nodup_nil⟩
  | cons first rest ih =>
    obtain ⟨key, value⟩ := first
    obtain ⟨hfresh, hrest⟩ := List.nodup_cons.mp h
    unfold put
    split
    · next heq => exact heq ▸ h
    · next hne =>
      refine List.nodup_cons.mpr ⟨fun hmem => ?_, ih hrest⟩
      obtain ⟨pair, hpair, hkey⟩ := List.mem_map.mp hmem
      rcases mem_put hpair with rfl | hold
      · exact hne hkey
      · exact hfresh (List.mem_map.mpr ⟨pair, hold, hkey⟩)

theorem nodup_collect (pairs : List (κ × ν)) : ((collect pairs).map Prod.fst).Nodup :=
  List.foldlRecOn (motive := fun known : List (κ × ν) => (known.map Prod.fst).Nodup) pairs _
    List.nodup_nil fun _ h pair _ => nodup_put pair.1 pair.2 h

/-- The values put under a key, first to last. -/
def valuesOf (k : κ) (pairs : List (κ × ν)) : List ν := (pairs.filter (·.1 = k)).map Prod.snd

theorem mem_valuesOf {k : κ} {v : ν} {pairs : List (κ × ν)} :
    v ∈ valuesOf k pairs ↔ (k, v) ∈ pairs := by
  simp [valuesOf]

/-- Putting pairs one after the other, a key has the last value put under it. -/
theorem get?_puts_last (k : κ) (pairs known : List (κ × ν)) :
    get? k (pairs.foldl (fun known pair => put pair.1 pair.2 known) known) =
      (valuesOf k pairs).getLast?.or (get? k known) := by
  induction pairs generalizing known with
  | nil => rfl
  | cons pair rest ih =>
    rw [List.foldl_cons, ih, get?_put]
    by_cases hkey : pair.1 = k
    · have hvalues : valuesOf k (pair :: rest) = pair.2 :: valuesOf k rest := by
        simp [valuesOf, hkey]
      rw [hvalues, if_pos hkey.symm, List.getLast?_cons, Option.or_some, Option.some_or]
    · have hvalues : valuesOf k (pair :: rest) = valuesOf k rest := by simp [valuesOf, hkey]
      rw [hvalues, if_neg (Ne.symm hkey)]

theorem get?_collect (k : κ) (pairs : List (κ × ν)) :
    get? k (collect pairs) = (valuesOf k pairs).getLast? := by
  rw [collect, get?_puts_last, get?, Option.or_none]

/-- Putting pairs one after the other, a key has its value in the end if nothing else was put
under it. -/
theorem get?_puts {k : κ} {v : ν} {pairs : List (κ × ν)} (honly : ∀ v', (k, v') ∈ pairs → v' = v)
    (known : List (κ × ν)) (h : get? k known = some v ∨ (k, v) ∈ pairs) :
    get? k (pairs.foldl (fun known pair => put pair.1 pair.2 known) known) = some v := by
  rw [get?_puts_last]
  cases hlast : (valuesOf k pairs).getLast? with
  | none =>
    have hnone : (k, v) ∉ pairs := by
      rw [← mem_valuesOf, List.getLast?_eq_none_iff.mp hlast]
      exact List.not_mem_nil
    exact h.resolve_right hnone
  | some last =>
    have hput : (k, last) ∈ pairs := mem_valuesOf.mp (List.mem_of_getLast? hlast)
    rw [honly last hput]
    rfl

/-- A key has a value in the end for every order of putting just when nothing else is put under
it. -/
theorem get?_puts_perm {k : κ} {v : ν} {pairs : List (κ × ν)} (hput : (k, v) ∈ pairs) :
    (∀ entries : List (κ × ν), entries.Perm pairs →
      get? k (entries.foldl (fun known pair => put pair.1 pair.2 known) []) = some v) ↔
    ∀ v', (k, v') ∈ pairs → v' = v := by
  constructor
  · intro hall v' hmem
    -- the other value can be put last
    obtain ⟨front, back, rfl⟩ := List.append_of_mem hmem
    have hperm : (front ++ (back ++ [(k, v')])).Perm (front ++ (k, v') :: back) :=
      (List.perm_append_singleton (k, v') back).append_left front
    have hlast := hall _ hperm
    rw [get?_puts_last, valuesOf, List.filter_append, List.map_append] at hlast
    simpa using hlast
  · intro honly entries hperm
    have honly' : ∀ v', (k, v') ∈ entries → v' = v := fun v' hmem =>
      honly v' (hperm.mem_iff.mp hmem)
    exact get?_puts honly' [] (.inr (hperm.mem_iff.mpr hput))

/-- Where keys are apart, a pair is the only one of its key. -/
theorem filter_of_mem {k : κ} {v : ν} {pairs : List (κ × ν)} (hapart : (pairs.map Prod.fst).Nodup)
    (h : (k, v) ∈ pairs) : pairs.filter (·.1 = k) = [(k, v)] := by
  induction pairs with
  | nil => cases h
  | cons pair rest ih =>
    obtain ⟨hfresh, hrest⟩ := List.nodup_cons.mp hapart
    rcases List.mem_cons.mp h with rfl | hin
    · have hnone : rest.filter (·.1 = k) = [] := List.filter_eq_nil_iff.mpr fun other hother hkey =>
        hfresh (List.mem_map.mpr ⟨other, hother, of_decide_eq_true hkey⟩)
      rw [List.filter_cons_of_pos (by simp), hnone]
    · have hother : ¬ pair.1 = k := fun heq => hfresh (List.mem_map.mpr ⟨(k, v), hin, heq.symm⟩)
      rw [List.filter_cons_of_neg (by simpa using hother), ih hrest hin]

theorem get?_eq_some_iff {k : κ} {v : ν} {pairs : List (κ × ν)}
    (hapart : (pairs.map Prod.fst).Nodup) : get? k pairs = some v ↔ (k, v) ∈ pairs := by
  refine ⟨mem_of_get?, fun h => ?_⟩
  induction pairs with
  | nil => cases h
  | cons pair rest ih =>
    obtain ⟨hfresh, hrest⟩ := List.nodup_cons.mp hapart
    rcases List.mem_cons.mp h with rfl | hin
    · exact if_pos rfl
    · have hother : k ≠ pair.1 := fun heq => hfresh (List.mem_map.mpr ⟨(k, v), hin, heq⟩)
      exact (if_neg hother).trans (ih hrest hin)

/-- Whatever is in the map has been put there. -/
theorem mem_collect {pairs : List (κ × ν)} {pair : κ × ν} (h : pair ∈ collect pairs) :
    pair ∈ pairs := by
  obtain ⟨k, v⟩ := pair
  have hget := (get?_eq_some_iff (nodup_collect pairs)).mpr h
  rw [get?_collect] at hget
  exact mem_valuesOf.mp (List.mem_of_getLast? hget)

/-- Where keys are apart, it does not matter in which order the pairs stand. -/
theorem get?_perm {pairs pairs' : List (κ × ν)} (hapart : (pairs.map Prod.fst).Nodup)
    (hperm : pairs'.Perm pairs) (k : κ) : get? k pairs' = get? k pairs := by
  have hapart' : (pairs'.map Prod.fst).Nodup := (hperm.map Prod.fst).nodup_iff.mpr hapart
  refine Option.ext fun v => ?_
  rw [get?_eq_some_iff hapart, get?_eq_some_iff hapart', hperm.mem_iff]

end LookupTap.Keyed
