/-
StreamingAcn.Directory — finite maps with one canonical form.

A directory lists its entries by strictly increasing key, so no key occurs twice and two
directories that answer every look-up alike are the same directory. The sources of a universe are
a directory keyed by their component identifiers, the workers of a receiver one keyed by universe.

Main statements:

* `find?_insert`, `find?_erase`, `find?_filter`, `find?_map`: what each operation does to look-ups;
* `Directory.ext_find?`: equal look-ups make equal directories.
-/

namespace StreamingAcn

/-- A finite map from `κ` to `β`: entries by strictly increasing key. -/
structure Directory (κ β : Type) [LT κ] where
  entries : List (κ × β)
  ordered : entries.Pairwise (fun a b => a.1 < b.1)

namespace Directory

variable {κ β γ : Type}

/-! ## Lists of entries -/

/-- The value stored under a key in a list of entries. -/
def findIn [DecidableEq κ] (k : κ) : List (κ × β) → Option β
  | [] => none
  | e :: rest => if e.1 = k then some e.2 else findIn k rest

/-- Put an entry at its place in a list of entries, replacing an entry of the same key. -/
def insertIn [LT κ] [DecidableLT κ] [DecidableEq κ] (k : κ) (v : β) :
    List (κ × β) → List (κ × β)
  | [] => [(k, v)]
  | e :: rest =>
    if k < e.1 then (k, v) :: e :: rest
    else if k = e.1 then (k, v) :: rest
    else e :: insertIn k v rest

theorem mem_insertIn [LT κ] [DecidableLT κ] [DecidableEq κ] {k : κ} {v : β} {a : κ × β}
    {l : List (κ × β)} (h : a ∈ insertIn k v l) : a = (k, v) ∨ a ∈ l := by
  induction l with
  | nil => simpa [insertIn] using h
  | cons e rest ih =>
    rw [insertIn] at h
    split at h
    · simpa using h
    · split at h
      · rcases List.mem_cons.1 h with h | h
        · exact .inl h
        · exact .inr (List.mem_cons_of_mem _ h)
      · rcases List.mem_cons.1 h with h | h
        · exact .inr (h ▸ List.mem_cons_self)
        · exact (ih h).imp id (List.mem_cons_of_mem _)

theorem insertIn_ordered [LT κ] [DecidableLT κ] [DecidableEq κ]
    [Trans (α := κ) (β := κ) (γ := κ) (· < ·) (· < ·) (· < ·)]
    [Std.Trichotomous (α := κ) (· < ·)] (k : κ) (v : β) {l : List (κ × β)}
    (h : l.Pairwise (fun a b => a.1 < b.1)) :
    (insertIn k v l).Pairwise (fun a b => a.1 < b.1) := by
  induction l with
  | nil => simp [insertIn]
  | cons e rest ih =>
    have ⟨he, hr⟩ := List.pairwise_cons.1 h
    rw [insertIn]
    split
    · next hk =>
      refine List.pairwise_cons.2 ⟨fun a ha => ?_, h⟩
      rcases List.mem_cons.1 ha with ha | ha
      · exact ha ▸ hk
      · exact Trans.trans (r := (· < ·)) hk (he a ha)
    · split
      · next _ hk => exact List.pairwise_cons.2 ⟨fun a ha => hk ▸ he a ha, hr⟩
      · next hk hne =>
        refine List.pairwise_cons.2 ⟨fun a ha => ?_, ih hr⟩
        rcases mem_insertIn ha with ha | ha
        · have hlt : e.1 < k := Decidable.byContradiction fun hn =>
            hne ((Std.Trichotomous.trichotomous (r := (· < ·)) e.1 k hn hk).symm)
          exact ha ▸ hlt
        · exact he a ha

/-! ## Operations -/

instance [LT κ] [DecidableEq κ] [DecidableEq β] : DecidableEq (Directory κ β) := fun a b =>
  if h : a.entries = b.entries then
    isTrue (by cases a; cases b; simp_all)
  else
    isFalse (fun e => h (congrArg entries e))

def empty [LT κ] : Directory κ β := ⟨[], .nil⟩

def keys [LT κ] (d : Directory κ β) : List κ := d.entries.map (·.1)

def values [LT κ] (d : Directory κ β) : List β := d.entries.map (·.2)

def find? [LT κ] [DecidableEq κ] (d : Directory κ β) (k : κ) : Option β := findIn k d.entries

def contains [LT κ] [DecidableEq κ] (d : Directory κ β) (k : κ) : Bool := (d.find? k).isSome

/-- Store a value under a key, replacing the value it had. -/
def insert [LT κ] [DecidableLT κ] [DecidableEq κ]
    [Trans (α := κ) (β := κ) (γ := κ) (· < ·) (· < ·) (· < ·)]
    [Std.Trichotomous (α := κ) (· < ·)] (d : Directory κ β) (k : κ) (v : β) : Directory κ β :=
  ⟨insertIn k v d.entries, insertIn_ordered k v d.ordered⟩

def filter [LT κ] (d : Directory κ β) (keep : κ → β → Bool) : Directory κ β :=
  ⟨d.entries.filter (fun e => keep e.1 e.2), d.ordered.filter _⟩

def erase [LT κ] [DecidableEq κ] (d : Directory κ β) (k : κ) : Directory κ β :=
  d.filter (fun k' _ => k' ≠ k)

def map [LT κ] (d : Directory κ β) (f : κ → β → γ) : Directory κ γ :=
  ⟨d.entries.map (fun e => (e.1, f e.1 e.2)), d.ordered.map _ (fun _ _ h => h)⟩

/-- Change every value in turn, handing a state on from each entry to the next. -/
def mapStateIn {σ : Type} (f : κ → β → σ → γ × σ) : List (κ × β) → σ → List (κ × γ) × σ
  | [], s => ([], s)
  | e :: rest, s =>
    let here := f e.1 e.2 s
    let later := mapStateIn f rest here.2
    ((e.1, here.1) :: later.1, later.2)

theorem keys_mapStateIn {σ : Type} (f : κ → β → σ → γ × σ) (l : List (κ × β)) (s : σ) :
    (mapStateIn f l s).1.map (·.1) = l.map (·.1) := by
  induction l generalizing s with
  | nil => rfl
  | cons e rest ih => simp [mapStateIn, ih]

/-- Change every value by increasing key, handing a state on; the directory and the last state. -/
def mapState [LT κ] {σ : Type} (d : Directory κ β) (f : κ → β → σ → γ × σ) (s : σ) :
    Directory κ γ × σ :=
  (⟨(mapStateIn f d.entries s).1, by
      have h := List.pairwise_map.2 d.ordered
      rw [← keys_mapStateIn f d.entries s] at h
      exact List.pairwise_map.1 h⟩,
    (mapStateIn f d.entries s).2)

/-! ## What the operations do to look-ups -/

@[simp] theorem find?_empty [LT κ] [DecidableEq κ] (k : κ) :
    (empty : Directory κ β).find? k = none := rfl

theorem findIn_eq_none [DecidableEq κ] {k : κ} {l : List (κ × β)} (h : ∀ e ∈ l, e.1 ≠ k) :
    findIn k l = none := by
  induction l with
  | nil => rfl
  | cons e rest ih =>
    simp only [List.mem_cons, forall_eq_or_imp] at h
    simp [findIn, h.1, ih h.2]

theorem findIn_insertIn [LT κ] [DecidableLT κ] [DecidableEq κ] (k k' : κ) (v : β)
    (l : List (κ × β)) :
    findIn k' (insertIn k v l) = if k = k' then some v else findIn k' l := by
  induction l with
  | nil => simp [insertIn, findIn]
  | cons e rest ih =>
    rw [insertIn]
    split
    · simp [findIn]
    · split
      · next _ hk => by_cases h : k = k' <;> simp [findIn, h, ← hk]
      · next _ hne =>
        by_cases h : e.1 = k'
        · have : k ≠ k' := fun hk => hne (hk.trans h.symm)
          simp [findIn, h, this]
        · simp [findIn, h, ih]

/-- After an insertion the key answers with the new value and every other key as before. -/
theorem find?_insert [LT κ] [DecidableLT κ] [DecidableEq κ]
    [Trans (α := κ) (β := κ) (γ := κ) (· < ·) (· < ·) (· < ·)]
    [Std.Trichotomous (α := κ) (· < ·)] (d : Directory κ β) (k k' : κ) (v : β) :
    (d.insert k v).find? k' = if k = k' then some v else d.find? k' :=
  findIn_insertIn k k' v d.entries

/-- Storing a value under a key that has one already changes that entry only. -/
theorem insertIn_middle [LT κ] [DecidableLT κ] [DecidableEq κ]
    [Trans (α := κ) (β := κ) (γ := κ) (· < ·) (· < ·) (· < ·)] [Std.Irrefl (α := κ) (· < ·)]
    {k : κ} {v w : β} {front back : List (κ × β)}
    (h : (front ++ (k, w) :: back).Pairwise (fun a b => a.1 < b.1)) :
    insertIn k v (front ++ (k, w) :: back) = front ++ (k, v) :: back := by
  have hirrefl : ∀ a : κ, ¬ a < a := Std.Irrefl.irrefl (r := (· < ·))
  induction front with
  | nil => simp [insertIn, hirrefl]
  | cons e rest ih =>
    obtain ⟨he, hr⟩ := List.pairwise_cons.1 h
    have hlt : e.1 < k := he (k, w) (by simp)
    have hnot : ¬ k < e.1 := fun hk => hirrefl k (Trans.trans (r := (· < ·)) hk hlt)
    have hne : k ≠ e.1 := fun hk => hirrefl k (hk ▸ hlt)
    rw [List.cons_append, insertIn, if_neg hnot, if_neg hne, ih hr, List.cons_append]

theorem entries_insert_middle [LT κ] [DecidableLT κ] [DecidableEq κ]
    [Trans (α := κ) (β := κ) (γ := κ) (· < ·) (· < ·) (· < ·)]
    [Std.Trichotomous (α := κ) (· < ·)] [Std.Irrefl (α := κ) (· < ·)] {d : Directory κ β}
    {k : κ} {v w : β} {front back : List (κ × β)} (h : d.entries = front ++ (k, w) :: back) :
    (d.insert k v).entries = front ++ (k, v) :: back := by
  have ho := d.ordered
  rw [h] at ho
  show insertIn k v d.entries = _
  rw [h, insertIn_middle ho]

theorem findIn_filter [LT κ] [DecidableEq κ] [Std.Irrefl (α := κ) (· < ·)]
    (keep : κ → β → Bool) (k : κ) {l : List (κ × β)}
    (h : l.Pairwise (fun a b => a.1 < b.1)) :
    findIn k (l.filter (fun e => keep e.1 e.2)) = (findIn k l).filter (keep k) := by
  induction l with
  | nil => rfl
  | cons e rest ih =>
    have ⟨he, hr⟩ := List.pairwise_cons.1 h
    by_cases hk : e.1 = k
    · subst hk
      have hn : findIn e.1 (rest.filter (fun e => keep e.1 e.2)) = none :=
        findIn_eq_none fun a ha hak =>
          Std.Irrefl.irrefl (r := (· < ·)) e.1 (hak ▸ he a (List.mem_filter.1 ha).1)
      by_cases hp : keep e.1 e.2 <;> simp [findIn, hp, hn, Option.filter]
    · by_cases hp : keep e.1 e.2 <;> simp [findIn, hp, hk, ih hr]

theorem find?_filter [LT κ] [DecidableEq κ] [Std.Irrefl (α := κ) (· < ·)] (d : Directory κ β)
    (keep : κ → β → Bool) (k : κ) : (d.filter keep).find? k = (d.find? k).filter (keep k) :=
  findIn_filter keep k d.ordered

/-- A forgotten key has no value and every other key answers as before. -/
theorem find?_erase [LT κ] [DecidableEq κ] [Std.Irrefl (α := κ) (· < ·)] (d : Directory κ β)
    (k k' : κ) : (d.erase k).find? k' = if k = k' then none else d.find? k' := by
  rw [erase, find?_filter]
  by_cases h : k = k'
  · subst h; cases d.find? k <;> simp [Option.filter]
  · have : k' ≠ k := fun e => h e.symm
    cases d.find? k' <;> simp [Option.filter, h, this]

theorem findIn_map [DecidableEq κ] (f : κ → β → γ) (k : κ) (l : List (κ × β)) :
    findIn k (l.map (fun e => (e.1, f e.1 e.2))) = (findIn k l).map (f k) := by
  induction l with
  | nil => rfl
  | cons e rest ih =>
    by_cases h : e.1 = k
    · subst h; simp [findIn]
    · simp [findIn, h, ih]

theorem find?_map [LT κ] [DecidableEq κ] (d : Directory κ β) (f : κ → β → γ) (k : κ) :
    (d.map f).find? k = (d.find? k).map (f k) :=
  findIn_map f k d.entries

/-! ## Extensionality -/

theorem mem_of_findIn [DecidableEq κ] {k : κ} {v : β} {l : List (κ × β)}
    (h : findIn k l = some v) : (k, v) ∈ l := by
  induction l with
  | nil => simp [findIn] at h
  | cons e rest ih =>
    rw [findIn] at h
    split at h
    · next hk => cases e; simp_all
    · exact List.mem_cons_of_mem _ (ih h)

theorem findIn_of_mem [LT κ] [DecidableEq κ] [Std.Irrefl (α := κ) (· < ·)] {k : κ} {v : β}
    {l : List (κ × β)} (h : l.Pairwise (fun a b => a.1 < b.1)) (hm : (k, v) ∈ l) :
    findIn k l = some v := by
  induction l with
  | nil => simp at hm
  | cons e rest ih =>
    have ⟨he, hr⟩ := List.pairwise_cons.1 h
    rcases List.mem_cons.1 hm with hm | hm
    · simp [findIn, ← hm]
    · have hk : e.1 ≠ k := fun hk => by
        have hlt := he (k, v) hm
        exact Std.Irrefl.irrefl (r := (· < ·)) k (by simpa [hk] using hlt)
      simp [findIn, hk, ih hr hm]

/-- The entries are exactly the answers to look-ups. -/
theorem mem_entries_iff [LT κ] [DecidableEq κ] [Std.Irrefl (α := κ) (· < ·)]
    (d : Directory κ β) (k : κ) (v : β) : (k, v) ∈ d.entries ↔ d.find? k = some v :=
  ⟨findIn_of_mem d.ordered, mem_of_findIn⟩

/-- The keys are those that a look-up answers. -/
theorem mem_keys_iff [LT κ] [DecidableEq κ] [Std.Irrefl (α := κ) (· < ·)] (d : Directory κ β)
    (k : κ) : k ∈ d.keys ↔ (d.find? k).isSome := by
  rw [keys, List.mem_map, Option.isSome_iff_exists]
  constructor
  · rintro ⟨⟨k', v⟩, hm, rfl⟩
    exact ⟨v, (d.mem_entries_iff k' v).1 hm⟩
  · rintro ⟨v, hv⟩
    exact ⟨(k, v), (d.mem_entries_iff k v).2 hv, rfl⟩

theorem keys_nodup [LT κ] [Std.Irrefl (α := κ) (· < ·)] (d : Directory κ β) : d.keys.Nodup := by
  rw [keys, List.Nodup, List.pairwise_map]
  refine List.Pairwise.imp ?_ d.ordered
  intro a b hab he
  rw [he] at hab
  exact Std.Irrefl.irrefl (r := (· < ·)) b.1 hab

theorem entries_nodup [LT κ] [Std.Irrefl (α := κ) (· < ·)] (d : Directory κ β) :
    d.entries.Nodup := by
  refine List.Pairwise.imp ?_ d.ordered
  intro a b hab he
  subst he
  exact Std.Irrefl.irrefl (r := (· < ·)) a.1 hab

/-- Two directories that answer every look-up alike are equal. -/
theorem ext_find? [LT κ] [DecidableEq κ] [Std.Irrefl (α := κ) (· < ·)]
    [Trans (α := κ) (β := κ) (γ := κ) (· < ·) (· < ·) (· < ·)] {d e : Directory κ β}
    (h : ∀ k, d.find? k = e.find? k) : d = e := by
  have hmem : ∀ a, a ∈ d.entries ↔ a ∈ e.entries := fun ⟨k, v⟩ => by
    rw [mem_entries_iff, mem_entries_iff, h]
  have hp : d.entries.Perm e.entries :=
    (List.perm_ext_iff_of_nodup d.entries_nodup e.entries_nodup).2 (fun {a} => hmem a)
  have he : d.entries = e.entries := hp.eq_of_pairwise
    (fun a b _ _ hab hba =>
      absurd (Trans.trans (r := (· < ·)) hab hba) (Std.Irrefl.irrefl (r := (· < ·)) a.1))
    d.ordered e.ordered
  cases d; cases e; simp_all

end Directory

end StreamingAcn
