import KeyAudit.Proofs.Data.Entries
import KeyAudit.Proofs.Settings.Merging
import KeyAudit.Proofs.Settings.Spelling
import KeyAudit.Proofs.Text.Order

namespace KeyAudit.Settings

/-!
# Settings from their own entries

Settings that come from the initial ones by taking entries over have a positive
number of jobs, and their sets are in order.  Such settings are given back by
their own entries, whatever the settings were before: each entry gives its
setting the value that it had and leaves the others as they are.
-/

variable {settings next kept : Settings}
variable {setting : Setting}
variable {value : Datum}

/-- The number of jobs is positive, and sets are in order. -/
structure WellKept (settings : Settings) : Prop where
  jobs : 1 ≤ settings.jobs
  alwaysUsedKeys : settings.alwaysUsedKeys.Pairwise Text.Before
  callOwners : settings.callOwners.Pairwise Text.Before
  callMethods : settings.callMethods.Pairwise Text.Before

/-- Settings that come from the initial ones by taking entries over any number of times. -/
inductive Reachable : Settings → Prop where
  | initial : Reachable initial
  | merge
      {settings next : Settings}
      {entries : Entries}
      (reachable : Reachable settings)
      (merged : settings.merge entries = .ok next) :
      Reachable next

section Invariant

theorem initial_wellKept : initial.WellKept where
  jobs := Nat.le_refl 1
  alwaysUsedKeys := List.pairwise_singleton _ _
  callOwners := .nil
  callMethods := by
    refine List.pairwise_pair.mpr ⟨?_, ?_⟩ <;> decide

theorem setOf_ordered
    {texts : List Text}
    (taken : setOf setting value = .ok texts) :
    texts.Pairwise Text.Before := by
  obtain ⟨items, _, rfl⟩ := Outcome.map_eq_ok.mp taken
  exact Text.before_sortedDistinct items

theorem countOf_positive
    {number : Nat}
    (taken : countOf setting value = .ok number) :
    1 ≤ number := by
  unfold countOf at taken
  split at taken
  · split at taken
    · cases taken
      omega
    · cases taken
  · cases taken

theorem WellKept.assign
    (wellKept : settings.WellKept)
    (assigned : settings.assign setting value = .ok next) :
    next.WellKept := by
  obtain ⟨jobs, alwaysUsedKeys, callOwners, callMethods⟩ := wellKept
  cases setting <;> obtain ⟨taken, isTaken, rfl⟩ := Outcome.map_eq_ok.mp assigned
  case alwaysUsedKeys =>
    exact ⟨jobs, setOf_ordered isTaken, callOwners, callMethods⟩
  case messageKeyCallOwners =>
    exact ⟨jobs, alwaysUsedKeys, setOf_ordered isTaken, callMethods⟩
  case messageKeyCallMethods =>
    exact ⟨jobs, alwaysUsedKeys, callOwners, setOf_ordered isTaken⟩
  case jobs =>
    exact ⟨countOf_positive isTaken, alwaysUsedKeys, callOwners, callMethods⟩
  all_goals exact ⟨jobs, alwaysUsedKeys, callOwners, callMethods⟩

theorem WellKept.merge
    {entries : Entries}
    (wellKept : settings.WellKept)
    (merged : settings.merge entries = .ok next) :
    next.WellKept := by
  refine Outcome.foldlM_invariant (fun _ reached => reached.WellKept) ?_
    wellKept (foldlM_of_merge merged)
  intro _ entry _ before after _ wellKept taken
  rcases assignEntry_cases taken with ⟨_, rfl⟩ | ⟨_, _, _, assigned⟩
  · exact wellKept
  · exact wellKept.assign assigned

theorem Reachable.wellKept
    (reachable : Reachable settings) :
    settings.WellKept := by
  induction reachable with
  | initial =>
      exact initial_wellKept
  | merge _ merged inductionHypothesis =>
      exact inductionHypothesis.merge merged

end Invariant

section Values

theorem text_injective : Function.Injective Datum.text := by
  intro first second same
  cases same
  rfl

/-- Settings are the same if each of them has the same value. -/
theorem eq_of_valueOf
    {first second : Settings}
    (same : ∀ setting, first.valueOf setting = second.valueOf setting) :
    first = second := by
  have sameTexts
      {texts others : List Text}
      (same : Datum.list (texts.map .text) = .list (others.map .text)) :
      texts = others :=
    text_injective.list_map (Datum.list.inj same)
  have sameJobs := Scalar.int.inj (Datum.scalar.inj (same .jobs))
  cases first
  cases second
  rw [mk.injEq]
  exact ⟨text_injective (same .messagesFile),
    sameTexts (same .additionalMessagesFiles),
    sameTexts (same .classesDirs),
    Scalar.bool.inj (Datum.scalar.inj (same .failOnUnusedKeys)),
    sameTexts (same .alwaysUsedKeys),
    sameTexts (same .messageKeyCallOwners),
    sameTexts (same .messageKeyCallMethods),
    text_injective (same .messageKeyPrefix),
    Int.ofNat_inj.mp sameJobs⟩

theorem valueOf_present
    (settings : Settings)
    (setting : Setting) :
    (settings.valueOf setting).isNull = false := by
  cases setting <;> rfl

/-- A setting that gets a value leaves all others as they are. -/
theorem valueOf_assign_of_ne
    (assigned : settings.assign setting value = .ok next)
    {other : Setting}
    (differs : other ≠ setting) :
    next.valueOf other = settings.valueOf other := by
  cases setting <;> obtain ⟨taken, _, rfl⟩ := Outcome.map_eq_ok.mp assigned
  all_goals cases other <;> try rfl
  -- what is left is the setting that has got a new value
  all_goals exact (differs rfl).elim

theorem textsOf_texts
    (setting : Setting)
    (texts : List Text) :
    textsOf setting (.list (texts.map .text)) = .ok texts := by
  refine Outcome.mapM_eq_ok.mpr ?_
  rw [List.forall₂_map_left_iff, List.forall₂_same]
  intro text _
  rfl

theorem setOf_texts
    (setting : Setting)
    {texts : List Text}
    (ordered : texts.Pairwise Text.Before) :
    setOf setting (.list (texts.map .text)) = .ok texts := by
  refine Outcome.map_eq_ok.mpr ⟨texts, textsOf_texts setting texts, ?_⟩
  exact Text.sortedDistinct_of_ordered ordered

theorem countOf_number
    (setting : Setting)
    {number : Nat}
    (positive : 1 ≤ number) :
    countOf setting (.scalar (.int number)) = .ok number :=
  if_pos (Int.ofNat_le.mpr positive)

/-- Settings take the value of well-kept settings as it is. -/
theorem WellKept.assign_valueOf
    (wellKept : kept.WellKept)
    (settings : Settings)
    (setting : Setting) :
    ∃ next,
      settings.assign setting (kept.valueOf setting) = .ok next ∧
        next.valueOf setting = kept.valueOf setting := by
  have taken
      {Value : Type}
      {result : Except SettingsFault Value}
      {found : Value}
      (isFound : result = .ok found)
      (change : Value → Settings) :
      result.map change = .ok (change found) :=
    Outcome.map_eq_ok.mpr ⟨found, isFound, rfl⟩
  cases setting with
  | messagesFile =>
      exact ⟨_, rfl, rfl⟩
  | additionalMessagesFiles =>
      exact ⟨_, taken (textsOf_texts _ _) _, rfl⟩
  | classesDirs =>
      exact ⟨_, taken (textsOf_texts _ _) _, rfl⟩
  | failOnUnusedKeys =>
      exact ⟨_, rfl, rfl⟩
  | alwaysUsedKeys =>
      exact ⟨_, taken (setOf_texts _ wellKept.alwaysUsedKeys) _, rfl⟩
  | messageKeyCallOwners =>
      exact ⟨_, taken (setOf_texts _ wellKept.callOwners) _, rfl⟩
  | messageKeyCallMethods =>
      exact ⟨_, taken (setOf_texts _ wellKept.callMethods) _, rfl⟩
  | messageKeyPrefix =>
      exact ⟨_, rfl, rfl⟩
  | jobs =>
      exact ⟨_, taken (countOf_number _ wellKept.jobs) _, rfl⟩

end Values

/-- Entries of settings in any order and with any spellings of their names. -/
def SpelledOut
    (settings : Settings)
    (entries : Entries) : Prop :=
  ∃ spelling : Setting → Text,
    (∀ setting,
      Setting.Respelling (Text.ofString setting.name) (spelling setting)) ∧
      entries.Perm
        (Setting.all.map fun setting =>
          (spelling setting, settings.valueOf setting))

/-- A mapping whose keys are texts. -/
def textMapping (entries : Entries) : List (Scalar × Datum) :=
  entries.map fun entry => (.text entry.1, entry.2)

section Entries

variable {entries : Entries}
variable {spelling : Text}

theorem spelledOut_toEntries
    (settings : Settings) :
    settings.SpelledOut settings.toEntries :=
  ⟨fun setting => Text.ofString setting.name,
    fun _ => Setting.respelling_self _, .refl _⟩

/-- Every entry gives one setting its value. -/
theorem SpelledOut.names
    (spelledOut : kept.SpelledOut entries)
    {entry : Text × Datum}
    (member : entry ∈ entries) :
    ∃ setting,
      Setting.ofSpelling? entry.1 = some setting ∧
        entry.2 = kept.valueOf setting := by
  obtain ⟨spelling, respelling, perm⟩ := spelledOut
  obtain ⟨setting, _, rfl⟩ := List.mem_map.mp (perm.mem_iff.mp member)
  exact ⟨setting, (respelling setting).names, rfl⟩

/-- Every setting has its entry. -/
theorem SpelledOut.listed
    (spelledOut : kept.SpelledOut entries)
    (setting : Setting) :
    ∃ entry ∈ entries, Setting.ofSpelling? entry.1 = some setting := by
  obtain ⟨spelling, respelling, perm⟩ := spelledOut
  refine ⟨(spelling setting, kept.valueOf setting), ?_,
    (respelling setting).names⟩
  rw [perm.mem_iff]
  exact List.mem_map_of_mem (Setting.mem_all setting)

/-- A spelling that names nothing is not the name of an entry. -/
theorem SpelledOut.ne_of_unknown
    (spelledOut : kept.SpelledOut entries)
    (unknown : Setting.ofSpelling? spelling = none)
    {entry : Text × Datum}
    (member : entry ∈ entries) :
    entry.1 ≠ spelling := by
  rintro rfl
  obtain ⟨setting, names, _⟩ := spelledOut.names member
  cases names.symm.trans unknown

/-- No two entries have one name, as they name different settings. -/
theorem SpelledOut.names_once
    (spelledOut : kept.SpelledOut entries) :
    (entries.map Prod.fst).Nodup := by
  obtain ⟨spelling, respelling, perm⟩ := spelledOut
  have injective : Function.Injective spelling := by
    intro first second same
    have sameName :=
      (congrArg Setting.ofSpelling? same).symm.trans (respelling first).names
    exact Option.some.inj (sameName.symm.trans (respelling second).names)
  have once : Setting.all.Nodup := by decide
  rw [(perm.map Prod.fst).nodup_iff, List.map_map]
  exact once.map injective

/-- An entry gives its setting the value that it had and leaves the others as they are. -/
theorem SpelledOut.assignEntry_ok
    (spelledOut : kept.SpelledOut entries)
    (wellKept : kept.WellKept)
    (settings : Settings)
    {entry : Text × Datum}
    (member : entry ∈ entries) :
    ∃ setting next,
      Setting.ofSpelling? entry.1 = some setting ∧
        settings.assignEntry entry = .ok next ∧
        next.valueOf setting = kept.valueOf setting ∧
        ∀ other,
          other ≠ setting →
          next.valueOf other = settings.valueOf other := by
  obtain ⟨setting, names, isValue⟩ := spelledOut.names member
  obtain ⟨next, assigned, own⟩ := wellKept.assign_valueOf settings setting
  refine ⟨setting, next, names, ?_, own, ?_⟩
  · obtain ⟨spelling, value⟩ := entry
    obtain rfl : value = kept.valueOf setting := isValue
    rw [assignEntry_of_names (valueOf_present kept setting) names, assigned]
  · exact fun other differs => valueOf_assign_of_ne assigned differs

/-- Once all entries have been taken over, every setting has the value that it had. -/
theorem SpelledOut.merge_eq
    (spelledOut : kept.SpelledOut entries)
    (wellKept : kept.WellKept)
    (settings : Settings) :
    settings.merge entries = .ok kept := by
  have unreserved :
      ∀ entry ∈ entries, entry.1 ≠ reservedSpelling :=
    fun _ member => spelledOut.ne_of_unknown (by decide) member
  obtain ⟨final, finished, _⟩ :
      ∃ final, entries.foldlM assignEntry settings = .ok final ∧ True := by
    refine Outcome.foldlM_ok (fun _ => True) ?_ trivial
    intro entry reached member _
    obtain ⟨_, next, _, taken, _⟩ :=
      spelledOut.assignEntry_ok wellKept reached member
    exact ⟨next, taken, trivial⟩
  -- the settings named by the entries done so far have their values already
  have settled :
      ∀ setting,
        (∃ entry ∈ entries, Setting.ofSpelling? entry.1 = some setting) →
        final.valueOf setting = kept.valueOf setting := by
    refine Outcome.foldlM_invariant
      (fun done reached =>
        ∀ setting,
          (∃ entry ∈ done, Setting.ofSpelling? entry.1 = some setting) →
          reached.valueOf setting = kept.valueOf setting)
      ?_ (by simp) finished
    intro done entry rest reached next shape holds taken setting named
    obtain ⟨own, result, names, isResult, ownValue, others⟩ :=
      spelledOut.assignEntry_ok wellKept reached
        (shape ▸ List.mem_append_right done List.mem_cons_self)
    cases isResult.symm.trans taken
    by_cases isOwn : setting = own
    · rw [isOwn, ownValue]
    · rw [others setting isOwn]
      obtain ⟨earlier, inDone, namesEarlier⟩ := named
      rcases List.mem_append.mp inDone with inDone | isEntry
      · exact holds setting ⟨earlier, inDone, namesEarlier⟩
      · obtain rfl := List.mem_singleton.mp isEntry
        exact (isOwn (Option.some.inj (namesEarlier.symm.trans names))).elim
  rw [merge_of_unreserved unreserved, finished,
    eq_of_valueOf fun setting => settled setting (spelledOut.listed setting)]

/-- The settings that can be reached are those that are well kept. -/
theorem reachable_iff_wellKept :
    Reachable kept ↔ kept.WellKept := by
  refine ⟨Reachable.wellKept, fun wellKept => ?_⟩
  exact .merge .initial ((spelledOut_toEntries kept).merge_eq wellKept initial)

end Entries

section Mapping

variable {entries : Entries}

/-- The entries of a mapping of texts are those that it was made of. -/
theorem entriesOf_textMapping
    (once : (entries.map Prod.fst).Nodup) :
    entriesOf (textMapping entries) = entries := by
  rw [entriesOf, textMapping, List.map_map]
  exact (congrArg Entries.ofPairs (List.map_id entries)).trans
    (Entries.ofPairs_eq_self.mpr once)

theorem textMapping_writable :
    ∀ entry ∈ textMapping entries, entry.1.isLongInteger = false := by
  intro entry member
  obtain ⟨_, _, rfl⟩ := List.mem_map.mp member
  rfl

/-- A mapping without a section for settings holds the settings itself. -/
theorem settingsMapping_of_no_section
    {mapping : List (Scalar × Datum)}
    (noSection : ∀ entry ∈ mapping, entry.1 ≠ .text sectionName) :
    settingsMapping mapping = .ok mapping := by
  rw [settingsMapping, List.find?_eq_none.mpr]
  intro entry member isSection
  exact noSection entry member (of_decide_eq_true isSection)

theorem settingsMapping_of_section
    {before mapping after : List (Scalar × Datum)}
    (noSection : ∀ entry ∈ before, entry.1 ≠ .text sectionName) :
    settingsMapping
        (before ++ (.text sectionName, .map mapping) :: after) =
      .ok mapping := by
  rw [settingsMapping, List.find?_append, List.find?_eq_none.mpr,
    List.find?_cons_of_pos, Option.none_or]
  · rfl
  · exact decide_eq_true rfl
  · intro entry member isSection
    exact noSection entry member (of_decide_eq_true isSection)

/-- A mapping that uses the entries of settings gives the settings. -/
theorem SpelledOut.ofMapping_eq
    (spelledOut : kept.SpelledOut entries)
    (wellKept : kept.WellKept)
    {mapping : List (Scalar × Datum)}
    (isUsed : settingsMapping mapping = .ok (textMapping entries)) :
    ofMapping mapping = .ok kept := by
  rw [ofMapping_eq_merge isUsed textMapping_writable,
    entriesOf_textMapping spelledOut.names_once,
    spelledOut.merge_eq wellKept]

theorem SpelledOut.no_section
    (spelledOut : kept.SpelledOut entries) :
    ∀ entry ∈ textMapping entries, entry.1 ≠ .text sectionName := by
  intro entry member
  obtain ⟨named, isNamed, rfl⟩ := List.mem_map.mp member
  intro isSection
  have unknown : Setting.ofSpelling? sectionName = none := by decide
  exact spelledOut.ne_of_unknown unknown isNamed (Scalar.text.inj isSection)

end Mapping

/--
Settings that can be reached have a positive number of jobs.  Their entries give
them back to any settings and as a mapping, with all spellings of the names and
in any order, also in a section of a mapping that has other entries.
-/
theorem reachable_restored_by_entries
    (kept other : Settings)
    (reachable : Reachable kept) :
    1 ≤ kept.jobs ∧
      other.merge kept.toEntries = .ok kept ∧
      ofMapping (textMapping kept.toEntries) = .ok kept ∧
      ∀ entries,
        kept.SpelledOut entries →
        other.merge entries = .ok kept ∧
          ofMapping (textMapping entries) = .ok kept ∧
          ∀ before after : List (Scalar × Datum),
            (∀ entry ∈ before, entry.1 ≠ .text sectionName) →
            ofMapping
                (before ++
                  (.text sectionName, .map (textMapping entries)) :: after) =
              .ok kept := by
  have wellKept := reachable_iff_wellKept.mp reachable
  have restored
      {entries : Entries}
      (spelledOut : kept.SpelledOut entries) :
      ofMapping (textMapping entries) = .ok kept :=
    spelledOut.ofMapping_eq wellKept
      (settingsMapping_of_no_section spelledOut.no_section)
  have own := spelledOut_toEntries kept
  refine ⟨wellKept.jobs, own.merge_eq wellKept other, restored own, ?_⟩
  intro entries spelledOut
  refine ⟨spelledOut.merge_eq wellKept other, restored spelledOut, ?_⟩
  intro before after noSection
  exact spelledOut.ofMapping_eq wellKept (settingsMapping_of_section noSection)

/-- Overrides in several spellings, of which the last one has no value. -/
def draftOverrides : Entries :=
  [(Text.ofString "jobs", .scalar (.int 4)),
    (Text.ofString "fail-on-unused-keys", .scalar (.bool false)),
    (Text.ofString "classesDirs", .list [.text "out", .text "lib.jar", .text "out"]),
    (Text.ofString "alwaysUsedKeys", .text "help.top"),
    (Text.ofString "messages_file", .null)]

/-- The settings that the overrides give. -/
def draft : Settings :=
  { initial with
    classesDirs := ["out", "lib.jar", "out"]
    failOnUnusedKeys := false
    alwaysUsedKeys := ["help.top"]
    jobs := 4 }

/-- The name of one setting with hyphens and those of the others with capitals. -/
def draftSpelling (setting : Setting) : Text :=
  if setting = .alwaysUsedKeys then
    Text.substitute '_' '-' (Text.ofString setting.name)
  else
    Setting.camelCase (Text.ofString setting.name)

/-- The entries of the draft from the last to the first. -/
def draftEntries : Entries :=
  (Setting.all.map fun setting =>
    (draftSpelling setting, draft.valueOf setting)).reverse

theorem reachable_restored_by_entries_draft :
    initial.merge draftOverrides = .ok draft ∧
      draftEntries.map Prod.fst =
        ["jobs", "messageKeyPrefix", "messageKeyCallMethods",
          "messageKeyCallOwners", "always-used-keys", "failOnUnusedKeys",
          "classesDirs", "additionalMessagesFiles", "messagesFile"].map
            Text.ofString ∧
      initial.merge draftEntries = .ok draft ∧
      ofMapping [(.text sectionName, .map (textMapping draftEntries))] =
        .ok draft := by
  have merged : initial.merge draftOverrides = .ok draft := by
    have told : (initial.merge draftOverrides).toOption = some draft := by
      decide +kernel
    cases result : initial.merge draftOverrides with
    | error fault =>
        rw [result] at told
        cases told
    | ok reached =>
        rw [result] at told
        rw [Option.some.inj told]
  have spelledOut : draft.SpelledOut draftEntries := by
    refine ⟨draftSpelling, fun setting => ?_, List.reverse_perm _⟩
    unfold draftSpelling
    split
    · exact Setting.respelling_hyphens _
    · exact Setting.respelling_camelCase _
  obtain ⟨_, _, _, restored⟩ :=
    reachable_restored_by_entries draft initial (.merge .initial merged)
  obtain ⟨mergedAgain, _, inSection⟩ := restored draftEntries spelledOut
  exact ⟨merged, by decide, mergedAgain, inSection [] [] (by simp)⟩

end KeyAudit.Settings
