import FaultInjection.Headers

/-!
# Headers - Entries that take the place of headers

Entries are gathered by name, and each group takes the place of the header that it names.
Groups have different names, so that none of them takes the place of another, and the outcome
can be told without them: a name that occurs among the entries has their values, and all other
pairs stay as they are.

Main definitions:

- `Headers.groupValues?`, the values that groups give a name.

Main results:

- `Headers.groupValues?_groupByName`: groups give a name the values of its entries.
- `Headers.getAll_replaceAll`: the values of each name once entries have taken their places.
- `Headers.filter_replaceAll`: the pairs that no entry names are kept.
-/

namespace FaultInjection

namespace Headers

/-! ## Names up to letter case -/

/-- Names are equal up to letter case when their lower cases are equal. -/
theorem sameName_iff {a b : String} : sameName a b = true ↔ lowerCase a = lowerCase b := by
  simp [sameName]

/-- A name is equal to itself. -/
theorem sameName_self (a : String) : sameName a a = true := sameName_iff.2 rfl

/-- What is equal to one of two equal names is equal to the other. -/
theorem sameName_congr_left {a b : String} (h : sameName a b = true) (c : String) :
    sameName a c = sameName b c := by
  rw [sameName_iff] at h
  simp only [sameName, h]

/-- What is equal to one of two equal names is equal to the other. -/
theorem sameName_congr_right {b c : String} (h : sameName b c = true) (a : String) :
    sameName a b = sameName a c := by
  rw [sameName_comm a b, sameName_comm a c, sameName_congr_left h]

/-- Equal names occur alike. -/
theorem contains_congr {a b : String} (h : sameName a b = true) (l : Headers) :
    l.contains a = l.contains b := by
  simp only [contains, sameName_congr_right h]

/-- A name that does not occur has no values. -/
theorem getAll_of_not_contains {h : Headers} {name : String} (hname : h.contains name = false) :
    h.getAll name = [] := by
  have hnone := mt (contains_eq_true_iff h name).2 (Bool.eq_false_iff.1 hname)
  exact Classical.not_not.1 hnone

/-- The values of a name are those of two parts. -/
theorem getAll_appendAll (h : Headers) (pairs : List (String × String)) (name : String) :
    (h.appendAll pairs).getAll name = h.getAll name ++ (Headers.mk pairs).getAll name := by
  simp [getAll, appendAll]

/-! ## Groups -/

/-- The values that the group of a name has, where there is one. -/
def groupValues? (groups : List Group) (name : String) : Option (List String) :=
  (groups.find? fun g => sameName g.name name).map Group.values

@[simp] theorem groupValues?_nil (name : String) : groupValues? [] name = none := rfl

/-- The first group has the name, or the others decide. -/
theorem groupValues?_cons (g : Group) (rest : List Group) (name : String) :
    groupValues? (g :: rest) name =
      if sameName g.name name then some g.values else groupValues? rest name := by
  by_cases h : sameName g.name name <;> simp [groupValues?, h]

/-- An entry joins the values of its name. -/
theorem groupValues?_addToGroups (groups : List Group) (name value other : String) :
    groupValues? (addToGroups groups name value) other =
      if sameName name other then some ((groupValues? groups other).getD [] ++ [value])
      else groupValues? groups other := by
  induction groups with
  | nil => simp [addToGroups, groupValues?_cons]
  | cons g rest ih =>
      by_cases hg : sameName g.name name = true
      · rw [addToGroups, if_pos hg, groupValues?_cons, groupValues?_cons,
          sameName_congr_left hg other]
        by_cases hother : sameName name other = true <;> simp [hother]
      · rw [addToGroups, if_neg hg, groupValues?_cons, groupValues?_cons, ih]
        by_cases hother : sameName name other = true
        · -- The first group is not that of the entry, hence not that of the other name either.
          have hfirst : ¬ sameName g.name other = true := by
            rw [← sameName_congr_right hother]
            exact hg
          simp [hother, hfirst]
        · simp [hother]

/-- Entries join the values that groups have already. -/
theorem groupValues?_foldl (entries : List (String × String)) (groups : List Group)
    (name : String) :
    groupValues? (entries.foldl (fun groups (name, value) => addToGroups groups name value) groups)
        name =
      if (Headers.mk entries).contains name then
        some ((groupValues? groups name).getD [] ++ (Headers.mk entries).getAll name)
      else groupValues? groups name := by
  induction entries generalizing groups with
  | nil => simp [contains]
  | cons entry rest ih =>
      obtain ⟨n, v⟩ := entry
      rw [List.foldl_cons, ih, groupValues?_addToGroups]
      have hcontains : (Headers.mk ((n, v) :: rest)).contains name =
          (sameName n name || (Headers.mk rest).contains name) := rfl
      have hvalues : (Headers.mk ((n, v) :: rest)).getAll name =
          (if sameName n name then [v] else []) ++ (Headers.mk rest).getAll name := by
        cases hn : sameName n name <;> simp [getAll, hn]
      rw [hcontains, hvalues]
      cases hn : sameName n name with
      | false => simp
      | true =>
          cases hrest : (Headers.mk rest).contains name with
          | false => simp [getAll_of_not_contains hrest]
          | true => simp

/-- Groups give a name the values of its entries, in order, and none where it has no entry. -/
theorem groupValues?_groupByName (entries : List (String × String)) (name : String) :
    groupValues? (groupByName entries) name =
      if (Headers.mk entries).contains name then some ((Headers.mk entries).getAll name)
      else none := by
  rw [groupByName, groupValues?_foldl]
  rfl

/-- An entry puts its name at the end of the names of groups, unless it is there. -/
theorem names_addToGroups (groups : List Group) (name value : String) :
    (addToGroups groups name value).map Group.name =
      if groups.any fun g => sameName g.name name then groups.map Group.name
      else groups.map Group.name ++ [name] := by
  induction groups with
  | nil => rfl
  | cons g rest ih =>
      by_cases hg : sameName g.name name = true
      · simp [addToGroups, hg]
      · rw [addToGroups, if_neg hg, List.map_cons, ih]
        by_cases hrest : (rest.any fun g => sameName g.name name) = true
        · simp only [List.any_cons, hrest, Bool.or_true, if_true, List.map_cons]
        · simp only [List.any_cons, hg, hrest, Bool.or_self, Bool.false_eq_true, if_false,
            List.map_cons, List.cons_append]

/-- Names that differ, up to letter case, from each other. -/
def AreDistinct (names : List String) : Prop := names.Pairwise fun a b => sameName a b = false

/-- An entry leaves groups with different names. -/
theorem areDistinct_addToGroups {groups : List Group} (h : AreDistinct (groups.map Group.name))
    (name value : String) : AreDistinct ((addToGroups groups name value).map Group.name) := by
  rw [names_addToGroups]
  split
  · exact h
  · rename_i hnone
    refine List.pairwise_append.2 ⟨h, List.pairwise_singleton _ _, ?_⟩
    intro a ha b hb
    obtain ⟨g, hg, rfl⟩ := List.mem_map.1 ha
    rw [List.mem_singleton.1 hb]
    exact Bool.eq_false_iff.2 fun hsame => hnone (List.any_eq_true.2 ⟨g, hg, hsame⟩)

/-- Entries leave groups with different names, of which holds what holds of the names before and of
those of the entries. -/
theorem names_foldl_addToGroups {holds : String → Prop} {entries : List (String × String)}
    (hentries : ∀ entry ∈ entries, holds entry.1) {groups : List Group}
    (hdistinct : AreDistinct (groups.map Group.name))
    (hgroups : ∀ name ∈ groups.map Group.name, holds name) :
    let outcome := entries.foldl (fun groups (name, value) => addToGroups groups name value) groups
    AreDistinct (outcome.map Group.name) ∧ ∀ name ∈ outcome.map Group.name, holds name := by
  induction entries generalizing groups with
  | nil => exact ⟨hdistinct, hgroups⟩
  | cons entry rest ih =>
      obtain ⟨hentry, hrest⟩ := List.forall_mem_cons.1 hentries
      refine ih hrest (areDistinct_addToGroups hdistinct entry.1 entry.2) ?_
      intro name hname
      rw [names_addToGroups] at hname
      split at hname
      · exact hgroups name hname
      · rcases List.mem_append.1 hname with hold | hnew
        · exact hgroups name hold
        · rw [List.mem_singleton.1 hnew]
          exact hentry

/-- The groups of entries have different names, and each of these occurs among the entries. -/
theorem names_groupByName (entries : List (String × String)) :
    AreDistinct ((groupByName entries).map Group.name) ∧
      ∀ name ∈ (groupByName entries).map Group.name, (Headers.mk entries).contains name = true :=
  names_foldl_addToGroups
    (fun entry hentry => List.any_eq_true.2 ⟨entry, hentry, sameName_self entry.1⟩)
    (List.Pairwise.nil : AreDistinct (List.map Group.name [])) nofun

/-! ## Groups in place of headers -/

/-- A name has the values of its group, or those that it had. -/
theorem getAll_foldl_set {groups : List Group} (hgroups : AreDistinct (groups.map Group.name))
    (h : Headers) (name : String) :
    (groups.foldl (fun h g => h.set g.name g.values) h).getAll name =
      (groupValues? groups name).getD (h.getAll name) := by
  induction groups generalizing h with
  | nil => rfl
  | cons g rest ih =>
      obtain ⟨hfirst, hrest⟩ := List.pairwise_cons.1 hgroups
      rw [List.foldl_cons, ih hrest, getAll_set, groupValues?_cons]
      by_cases hg : sameName g.name name = true
      · -- No later group takes the place of this one, since their names are different.
        have hothers : groupValues? rest name = none := by
          rw [groupValues?, List.find?_eq_none.2, Option.map_none]
          intro other hother
          rw [← sameName_congr_right hg, sameName_comm,
            hfirst other.name (List.mem_map_of_mem hother)]
          exact Bool.false_ne_true
        simp [hg, hothers]
      · simp [hg]

/-- A name that entries name has their values, in order, and any other name those that it had. -/
theorem getAll_replaceAll (h : Headers) (entries : List (String × String)) (name : String) :
    (h.replaceAll entries).getAll name =
      if (Headers.mk entries).contains name then (Headers.mk entries).getAll name
      else h.getAll name := by
  rw [replaceAll, getAll_foldl_set (names_groupByName entries).1, groupValues?_groupByName]
  split <;> rfl

/-- Pairs with other names than one that is set are kept. -/
theorem filter_set (kept : String → Bool) {name : String}
    (hkept : ∀ other, sameName other name = true → kept other = false) (h : Headers)
    (values : List String) :
    (h.set name values).toList.filter (kept ·.1) = h.toList.filter (kept ·.1) := by
  have hnew : (values.map fun value => (name, value)).filter (kept ·.1) = [] := by
    simp [List.filter_eq_nil_iff, hkept name (sameName_self name)]
  have hold : ∀ pair ∈ h.toList, (kept pair.1 && !sameName pair.1 name) = kept pair.1 := by
    intro pair _
    cases hsame : sameName pair.1 name with
    | false => simp
    | true => simp [hkept pair.1 hsame]
  simp only [set, erase, appendAll, List.filter_append, List.filter_filter, hnew, List.append_nil]
  exact List.filter_congr hold

/-- The pairs that no entry names are kept, in their order and as they are written. -/
theorem filter_replaceAll (h : Headers) (entries : List (String × String)) :
    (h.replaceAll entries).toList.filter (fun pair => !(Headers.mk entries).contains pair.1) =
      h.toList.filter fun pair => !(Headers.mk entries).contains pair.1 := by
  have hnames := (names_groupByName entries).2
  unfold replaceAll
  generalize groupByName entries = groups at hnames
  induction groups generalizing h with
  | nil => rfl
  | cons g rest ih =>
      obtain ⟨hfirst, hrest⟩ := List.forall_mem_cons.1 hnames
      rw [List.foldl_cons, ih (h.set g.name g.values) hrest]
      refine filter_set (fun name => !(Headers.mk entries).contains name) ?_ h g.values
      intro other hother
      rw [contains_congr hother, hfirst]
      rfl

end Headers

end FaultInjection
