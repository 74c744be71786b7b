import KeyAudit.Key.CallSite
import Mathlib.Data.List.Nodup
import Mathlib.Data.List.Induction

namespace KeyAudit

/-!
# Tables of call sites

A table keeps call sites in groups and each of them once.  The groups are in the
order in which their first call sites were put in, and so are the call sites of
each group.  Looking a member up in the table comes to the same as going through
the call sites in the order in which they were put in.
-/

section EraseDups

variable {Item : Type}
variable [BEq Item] [LawfulBEq Item]
variable {items : List Item}
variable {item : Item}

theorem eraseDups_append_of_mem
    (present : item ∈ items) :
    (items ++ [item]).eraseDups = items.eraseDups := by
  simp [List.eraseDups_append, List.removeAll, present]

theorem eraseDups_append_of_not_mem
    (isNew : item ∉ items) :
    (items ++ [item]).eraseDups = items.eraseDups ++ [item] := by
  simp [List.eraseDups_append, List.removeAll, isNew, List.eraseDups_cons]

theorem nodup_eraseDups
    (items : List Item) :
    items.eraseDups.Nodup := by
  induction items using List.reverseRecOn with
  | nil =>
      exact List.nodup_nil
  | append_singleton items item inductionHypothesis =>
      by_cases present : item ∈ items
      · rwa [eraseDups_append_of_mem present]
      · rw [eraseDups_append_of_not_mem present, ← List.concat_eq_append]
        exact inductionHypothesis.concat (mt List.mem_eraseDups.mp present)

end EraseDups

/-- The class and method whose calls are meant. -/
def CallSite.target (site : CallSite) : Text × Text :=
  (site.owner, site.name)

/-- Only the group of its own class and method can hold a call site of a member. -/
theorem CallSite.target_of_accepts
    {site : CallSite}
    {member : Member}
    (accepts : site.accepts member = true) :
    (member.owner, member.name) = (site.owner, site.name) := by
  simp only [CallSite.accepts, Bool.and_eq_true, beq_iff_eq] at accepts
  rw [accepts.1.1, accepts.1.2]

namespace CallSiteTable

variable {site : CallSite}
variable {member : Member}

/-- A call site that is there already changes nothing. -/
theorem find?_of_contains
    {sites : List CallSite}
    (isThere : site ∈ sites) :
    (sites.find? fun other => other.accepts member) =
      (sites ++ [site]).find? fun other => other.accepts member := by
  rw [List.find?_append]
  cases found : sites.find? fun other => other.accepts member with
  | some other =>
      rfl
  | none =>
      have refused := List.find?_eq_none.mp found site isThere
      simp [refused]

section Groups

variable {target : Text × Text}
variable (sites : List CallSite)
variable (groups : List ((Text × Text) × List CallSite))

theorem find?_of_target
    (isTarget : (member.owner, member.name) = target) :
    find? ⟨(target, sites) :: groups⟩ member =
      sites.find? fun other => other.accepts member := by
  subst target
  simp only [find?, List.lookup_cons_self]

theorem find?_of_other
    (differs : (member.owner, member.name) ≠ target) :
    find? ⟨(target, sites) :: groups⟩ member =
      find? ⟨groups⟩ member := by
  simp only [find?, List.lookup_cons, beq_false_of_ne differs]

end Groups

/-- A call site is looked for after those that were in the table before. -/
theorem find?_insertInto
    (site : CallSite)
    (groups : List ((Text × Text) × List CallSite))
    (member : Member) :
    find? ⟨insertInto site groups⟩ member =
      (find? ⟨groups⟩ member).or
        ([site].find? fun other => other.accepts member) := by
  have refused
      (differs : (member.owner, member.name) ≠ (site.owner, site.name)) :
      ([site].find? fun other => other.accepts member) = none := by
    have notAccepted : ¬site.accepts member = true :=
      fun accepts => differs (CallSite.target_of_accepts accepts)
    simp [notAccepted]
  induction groups with
  | nil =>
      by_cases isTarget :
          (member.owner, member.name) = (site.owner, site.name)
      · rw [insertInto, find?_of_target _ _ isTarget]
        rfl
      · rw [insertInto, find?_of_other _ _ isTarget, refused isTarget]
        rfl
  | cons group groups inductionHypothesis =>
      obtain ⟨target, sites⟩ := group
      unfold insertInto
      by_cases isGroup : target = (site.owner, site.name)
      · rw [if_pos isGroup]
        by_cases isTarget : (member.owner, member.name) = target
        · rw [find?_of_target _ _ isTarget, find?_of_target _ _ isTarget,
            ← List.find?_append]
          split
          · rename_i isThere
            exact find?_of_contains (List.contains_iff_mem.mp isThere)
          · rfl
        · rw [find?_of_other _ _ isTarget, find?_of_other _ _ isTarget,
            refused (isGroup ▸ isTarget), Option.or_none]
      · rw [if_neg isGroup]
        by_cases isTarget : (member.owner, member.name) = target
        · have differs :
              (member.owner, member.name) ≠ (site.owner, site.name) :=
            isTarget ▸ isGroup
          rw [find?_of_target _ _ isTarget, find?_of_target _ _ isTarget,
            refused differs, Option.or_none]
        · rw [find?_of_other _ _ isTarget, find?_of_other _ _ isTarget]
          exact inductionHypothesis

theorem find?_ofList
    (sites : List CallSite)
    (member : Member) :
    (ofList sites).find? member =
      sites.find? fun site => site.accepts member := by
  suffices general :
      ∀ table : CallSiteTable,
        (sites.foldl insert table).find? member =
          (table.find? member).or
            (sites.find? fun site => site.accepts member) from
    general empty
  induction sites with
  | nil =>
      intro table
      exact Option.or_none.symm
  | cons site sites inductionHypothesis =>
      intro table
      rw [List.foldl_cons, inductionHypothesis, insert, find?_insertInto,
        Option.or_assoc, ← List.find?_append, List.singleton_append]

/-- The call sites of one class and method, each once. -/
def groupOf
    (sites : List CallSite)
    (target : Text × Text) : List CallSite :=
  (sites.filter fun site => site.target = target).eraseDups

theorem mem_groupOf
    {sites : List CallSite}
    {target : Text × Text} :
    site ∈ groupOf sites target ↔ site ∈ sites ∧ site.target = target := by
  rw [groupOf, List.mem_eraseDups, List.mem_filter, decide_eq_true_eq]

theorem groupOf_append_of_other
    {sites : List CallSite}
    {target : Text × Text}
    (differs : site.target ≠ target) :
    groupOf (sites ++ [site]) target = groupOf sites target := by
  simp [groupOf, differs]

/-- A call site comes last in its own group unless it is there already. -/
theorem groupOf_append_own
    (sites : List CallSite)
    (site : CallSite) :
    groupOf (sites ++ [site]) site.target =
      if (groupOf sites site.target).contains site then
        groupOf sites site.target
      else
        groupOf sites site.target ++ [site] := by
  have shape :
      (sites ++ [site]).filter (fun other => other.target = site.target) =
        sites.filter (fun other => other.target = site.target) ++ [site] := by
    simp
  rw [groupOf, shape]
  split
  · rename_i isThere
    have present := List.mem_eraseDups.mp (List.contains_iff_mem.mp isThere)
    exact eraseDups_append_of_mem present
  · rename_i notThere
    have isNew := mt (List.contains_iff_mem.mpr ∘ List.mem_eraseDups.mpr) notThere
    exact eraseDups_append_of_not_mem isNew

section Targets

variable {targets : List (Text × Text)}
variable {group grown : Text × Text → List CallSite}

/-- A call site whose class and method are there changes the group of these. -/
theorem insertInto_of_mem
    (once : targets.Nodup)
    (present : site.target ∈ targets)
    (own :
      grown site.target =
        if (group site.target).contains site then group site.target
        else group site.target ++ [site])
    (others : ∀ target, site.target ≠ target → grown target = group target) :
    insertInto site (targets.map fun target => (target, group target)) =
      targets.map fun target => (target, grown target) := by
  induction targets with
  | nil =>
      cases present
  | cons first rest inductionHypothesis =>
      obtain ⟨notInRest, restOnce⟩ := List.nodup_cons.mp once
      rw [List.map_cons, List.map_cons]
      unfold insertInto
      by_cases isFirst : first = site.target
      · subst first
        have unchanged :
            (rest.map fun target => (target, group target)) =
              rest.map fun target => (target, grown target) := by
          refine List.map_congr_left fun target member => ?_
          rw [others target]
          rintro rfl
          exact notInRest member
        rw [own, unchanged]
        exact if_pos rfl
      · have inRest :=
          (List.mem_cons.mp present).resolve_left (Ne.symm isFirst)
        rw [others first (Ne.symm isFirst), inductionHypothesis restOnce inRest]
        exact if_neg isFirst

/-- A call site whose class and method are new begins a group behind the others. -/
theorem insertInto_of_not_mem
    (isNew : site.target ∉ targets) :
    insertInto site (targets.map fun target => (target, group target)) =
      (targets.map fun target => (target, group target)) ++
        [(site.target, [site])] := by
  induction targets with
  | nil =>
      rfl
  | cons first rest inductionHypothesis =>
      rw [List.mem_cons, not_or] at isNew
      rw [List.map_cons]
      unfold insertInto
      rw [inductionHypothesis isNew.2]
      exact if_neg (Ne.symm isNew.1)

end Targets

/-- There is one group for each class and method, in the order of their first call sites. -/
theorem groups_ofList
    (sites : List CallSite) :
    (ofList sites).groups =
      (sites.map CallSite.target).eraseDups.map fun target =>
        (target, groupOf sites target) := by
  induction sites using List.reverseRecOn with
  | nil =>
      rfl
  | append_singleton sites site inductionHypothesis =>
      have last :
          (ofList (sites ++ [site])).groups =
            insertInto site (ofList sites).groups := by
        rw [ofList, List.foldl_append]
        rfl
      rw [last, inductionHypothesis, List.map_append, List.map_singleton]
      by_cases present : site.target ∈ sites.map CallSite.target
      · rw [eraseDups_append_of_mem present]
        exact insertInto_of_mem (nodup_eraseDups _)
          (List.mem_eraseDups.mpr present) (groupOf_append_own sites site)
          fun _ => groupOf_append_of_other
      · have isNew : site.target ∉ (sites.map CallSite.target).eraseDups :=
          mt List.mem_eraseDups.mp present
        have noneBefore : groupOf sites site.target = [] := by
          rw [List.eq_nil_iff_forall_not_mem]
          intro other member
          obtain ⟨isSite, sameTarget⟩ := mem_groupOf.mp member
          exact present (sameTarget ▸ List.mem_map_of_mem isSite)
        have alone : groupOf (sites ++ [site]) site.target = [site] := by
          rw [groupOf_append_own, noneBefore]
          rfl
        rw [eraseDups_append_of_not_mem present, insertInto_of_not_mem isNew,
          List.map_append, List.map_singleton, alone, List.append_cancel_right_eq]
        refine List.map_congr_left fun target member => ?_
        rw [groupOf_append_of_other]
        rintro rfl
        exact isNew member

theorem toList_ofList
    (sites : List CallSite) :
    (ofList sites).toList =
      (sites.map CallSite.target).eraseDups.flatMap (groupOf sites) := by
  rw [toList, groups_ofList, List.flatMap_map]

/-- A table holds no other call sites than those that were put in. -/
theorem mem_ofList
    {sites : List CallSite}
    (member : site ∈ (ofList sites).toList) :
    site ∈ sites := by
  rw [toList_ofList, List.mem_flatMap] at member
  obtain ⟨target, _, inGroup⟩ := member
  exact (mem_groupOf.mp inGroup).1

theorem mem_toList_of_mem
    {sites : List CallSite}
    (present : site ∈ sites) :
    site ∈ (ofList sites).toList := by
  rw [toList_ofList, List.mem_flatMap]
  have isTarget : site.target ∈ sites.map CallSite.target :=
    List.mem_map_of_mem present
  exact ⟨site.target, List.mem_eraseDups.mpr isTarget,
    mem_groupOf.mpr ⟨present, rfl⟩⟩

theorem nodup_toList_ofList
    (sites : List CallSite) :
    (ofList sites).toList.Nodup := by
  rw [toList_ofList, List.nodup_flatMap]
  refine ⟨fun target _ => nodup_eraseDups _, ?_⟩
  refine (nodup_eraseDups (sites.map CallSite.target)).imp ?_
  intro first second differ site inFirst inSecond
  exact differ
    ((mem_groupOf.mp inFirst).2.symm.trans (mem_groupOf.mp inSecond).2)

/--
A table finds the first call site of a member in the list that it was made of.
It has each call site of the list once: class and method by class and method,
in the order of their first call sites, and in the order of the list for each.
-/
theorem ofList_searches_in_order
    (sites : List CallSite) :
    (∀ member,
      (ofList sites).find? member =
        sites.find? fun site => site.accepts member) ∧
      (ofList sites).toList.Nodup ∧
      (∀ site, site ∈ (ofList sites).toList ↔ site ∈ sites) ∧
      (ofList sites).toList =
        (sites.map CallSite.target).eraseDups.flatMap fun target =>
          (sites.filter fun site => site.target = target).eraseDups := by
  refine ⟨find?_ofList sites, nodup_toList_ofList sites, ?_, ?_⟩
  · exact fun site => ⟨mem_ofList, mem_toList_of_mem⟩
  · exact toList_ofList sites

end CallSiteTable

end KeyAudit
