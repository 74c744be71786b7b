import KeyAudit.Proofs.Data.Entries
import KeyAudit.Proofs.Settings.Merging
import KeyAudit.Report.Trouble

namespace KeyAudit

/-!
# Names that no setting has

An entry whose name no setting has makes a mapping fail if it has a value.  If it
has none it is passed over with all its kind, and the settings are those of the
other entries.  One name fails in its own way, whatever its value is.
-/

namespace Datum

mutual

/-- What is put in the place of a knot brings no long integer in. -/
theorem replace_writable
    {number : Nat}
    {whole : Datum}
    (writable : whole.holdsLongInteger = false) :
    (datum : Datum) →
    datum.holdsLongInteger = false →
    (replace number whole datum).holdsLongInteger = false
  | .scalar _, short => short
  | .list items, short => replaceItems_writable writable items short
  | .map entries, short => replaceEntries_writable writable entries short
  | .set _, short => short
  | .pair first second, short => by
      obtain ⟨shortFirst, shortSecond⟩ := Bool.or_eq_false_iff.mp short
      exact Bool.or_eq_false_iff.mpr
        ⟨replace_writable writable first shortFirst,
          replace_writable writable second shortSecond⟩
  | .knot inner body, short => by
      unfold replace
      split
      · exact short
      · exact replace_writable writable body short
  | .again other kind, short => by
      unfold replace
      split
      · exact writable
      · exact short

theorem replaceItems_writable
    {number : Nat}
    {whole : Datum}
    (writable : whole.holdsLongInteger = false) :
    (items : List Datum) →
    anyLongInteger items = false →
    anyLongInteger (replaceItems number whole items) = false
  | [], short => short
  | item :: items, short => by
      obtain ⟨shortItem, shortItems⟩ := Bool.or_eq_false_iff.mp short
      exact Bool.or_eq_false_iff.mpr
        ⟨replace_writable writable item shortItem,
          replaceItems_writable writable items shortItems⟩

theorem replaceEntries_writable
    {number : Nat}
    {whole : Datum}
    (writable : whole.holdsLongInteger = false) :
    (entries : List (Scalar × Datum)) →
    anyLongEntry entries = false →
    anyLongEntry (replaceEntries number whole entries) = false
  | [], short => short
  | (key, value) :: entries, short => by
      obtain ⟨shortEntry, shortEntries⟩ := Bool.or_eq_false_iff.mp short
      obtain ⟨shortKey, shortValue⟩ := Bool.or_eq_false_iff.mp shortEntry
      exact Bool.or_eq_false_iff.mpr
        ⟨Bool.or_eq_false_iff.mpr
            ⟨shortKey, replace_writable writable value shortValue⟩,
          replaceEntries_writable writable entries shortEntries⟩

end

theorem anyLongInteger_eq_false
    {items : List Datum} :
    anyLongInteger items = false ↔
      ∀ item ∈ items, item.holdsLongInteger = false := by
  induction items with
  | nil =>
      simp [anyLongInteger]
  | cons item items inductionHypothesis =>
      rw [anyLongInteger, Bool.or_eq_false_iff, inductionHypothesis,
        List.forall_mem_cons]

/-- The items of data without long integers have none either. -/
theorem items_writable
    {datum : Datum}
    (short : datum.holdsLongInteger = false)
    {items : List Datum}
    (isItems : datum.items? = some items) :
    ∀ item ∈ items, item.holdsLongInteger = false := by
  have unfolded : datum.unfold.holdsLongInteger = false := by
    cases datum with
    | knot number body =>
        exact replace_writable short body short
    | _ =>
        exact short
  unfold items? at isItems
  split at isItems
  · rename_i list isList
    cases isItems
    rw [isList] at unfolded
    exact anyLongInteger_eq_false.mp unfolded
  · rename_i set isSet
    cases isItems
    rw [isSet] at unfolded
    intro item member
    obtain ⟨scalar, inSet, rfl⟩ := List.mem_map.mp member
    exact Bool.eq_false_iff.mpr (List.any_eq_false.mp unfolded scalar inSet)
  · cases isItems

end Datum

namespace Settings

variable {settings next : Settings}
variable {setting : Setting}
variable {fault : SettingsFault}
variable {entries : Entries}
variable {mapping used : List (Scalar × Datum)}

section Faults

/-- A complaint about a value or about one of its items. -/
def ComplainsOf
    (value : Datum)
    (fault : SettingsFault) : Prop :=
  ∃ about,
    fault.value? = some about ∧
      (about = value ∨ ∃ items, value.items? = some items ∧ about ∈ items)

/-- A fault of an entry is that its name is unknown or a complaint about its value. -/
def FaultOf
    (entry : Text × Datum)
    (fault : SettingsFault) : Prop :=
  fault = .unknown entry.1 ∨ ComplainsOf entry.2 fault

theorem textsOf_fails
    (setting : Setting)
    (value : Datum) :
    Outcome.FailsOnly (ComplainsOf value) (textsOf setting value) := by
  unfold textsOf
  split
  · exact Outcome.FailsOnly.value _
  · rename_i items _ isItems
    refine Outcome.FailsOnly.mapM fun item member => ?_
    split
    · exact Outcome.FailsOnly.value _
    · exact Outcome.FailsOnly.fault
        ⟨item, rfl, Or.inr ⟨items, isItems, member⟩⟩
  · exact Outcome.FailsOnly.fault ⟨value, rfl, Or.inl rfl⟩

theorem textOf_fails
    (setting : Setting)
    (value : Datum) :
    Outcome.FailsOnly (ComplainsOf value) (textOf setting value) := by
  unfold textOf
  split
  · exact Outcome.FailsOnly.value _
  · exact Outcome.FailsOnly.fault ⟨value, rfl, Or.inl rfl⟩

theorem flagOf_fails
    (setting : Setting)
    (value : Datum) :
    Outcome.FailsOnly (ComplainsOf value) (flagOf setting value) := by
  unfold flagOf
  split
  · exact Outcome.FailsOnly.value _
  · exact Outcome.FailsOnly.fault ⟨value, rfl, Or.inl rfl⟩

theorem countOf_fails
    (setting : Setting)
    (value : Datum) :
    Outcome.FailsOnly (ComplainsOf value) (countOf setting value) := by
  unfold countOf
  split
  · split
    · exact Outcome.FailsOnly.value _
    · exact Outcome.FailsOnly.fault ⟨_, rfl, Or.inl rfl⟩
  · exact Outcome.FailsOnly.fault ⟨value, rfl, Or.inl rfl⟩

theorem assign_fails
    (settings : Settings)
    (setting : Setting)
    (value : Datum) :
    Outcome.FailsOnly (ComplainsOf value) (settings.assign setting value) := by
  have setOf_fails :
      Outcome.FailsOnly (ComplainsOf value) (setOf setting value) :=
    (textsOf_fails setting value).map _
  cases setting with
  | messagesFile | messageKeyPrefix =>
      exact (textOf_fails _ value).map _
  | additionalMessagesFiles | classesDirs =>
      exact (textsOf_fails _ value).map _
  | failOnUnusedKeys =>
      exact (flagOf_fails _ value).map _
  | alwaysUsedKeys | messageKeyCallOwners | messageKeyCallMethods =>
      exact setOf_fails.map _
  | jobs =>
      exact (countOf_fails _ value).map _

theorem assignEntry_fails
    (settings : Settings)
    (entry : Text × Datum) :
    Outcome.FailsOnly (FaultOf entry) (settings.assignEntry entry) := by
  obtain ⟨spelling, value⟩ := entry
  cases present : value.isNull with
  | true =>
      rw [assignEntry_of_null present]
      exact Outcome.FailsOnly.value settings
  | false =>
      cases names : Setting.ofSpelling? spelling with
      | none =>
          rw [assignEntry_of_unknown present names]
          exact Outcome.FailsOnly.fault (Or.inl rfl)
      | some setting =>
          rw [assignEntry_of_names present names]
          exact (assign_fails settings setting value).mono Or.inr

theorem foldlM_fails
    (settings : Settings) :
    Outcome.FailsOnly
      (fun fault => ∃ entry ∈ entries, FaultOf entry fault)
      (entries.foldlM assignEntry settings) := by
  refine Outcome.FailsOnly.foldlM (fun reached entry member => ?_) settings
  exact (assignEntry_fails reached entry).mono fun isFault =>
    ⟨entry, member, isFault⟩

/-- Faults of entries are reported as bad settings if their values can be written. -/
theorem reported_of_faultOf
    {entry : Text × Datum}
    (isFault : FaultOf entry fault)
    (short : entry.2.holdsLongInteger = false) :
    Trouble.ofSettings fault = .failure (.settings fault.message) := by
  have reported
      {about : Datum}
      (isAbout : fault.value? = some about)
      (shortAbout : about.holdsLongInteger = false) :
      Trouble.ofSettings fault = .failure (.settings fault.message) := by
    have canWrite : fault.value?.any Datum.holdsLongInteger = false := by
      rw [isAbout]
      exact shortAbout
    cases fault with
    | unknown | sectionNotMapping | reserved | longName =>
        cases isAbout
    | _ =>
        simp only [Trouble.ofSettings, canWrite, Bool.false_eq_true, if_false]
  rcases isFault with rfl | ⟨about, isAbout, rfl | ⟨items, isItems, member⟩⟩
  · rfl
  · exact reported isAbout short
  · exact reported isAbout (Datum.items_writable short isItems about member)

end Faults

section Entries

/-- Entries that are all taken over have no values under unknown names. -/
theorem null_of_taken
    (taken : entries.foldlM assignEntry settings = .ok next)
    {entry : Text × Datum}
    (member : entry ∈ entries)
    (unknown : Setting.ofSpelling? entry.1 = none) :
    entry.2.isNull = true := by
  have each :
      ∀ entry ∈ entries,
        entry.2.isNull = true ∨ Setting.ofSpelling? entry.1 ≠ none := by
    refine Outcome.foldlM_invariant
      (fun done _ =>
        ∀ entry ∈ done,
          entry.2.isNull = true ∨ Setting.ofSpelling? entry.1 ≠ none)
      ?_ (by simp) taken
    intro done entry _ _ _ _ holds stepped
    refine List.forall_mem_append.mpr ⟨holds, List.forall_mem_singleton.mpr ?_⟩
    rcases assignEntry_cases stepped with ⟨isNull, _⟩ | ⟨_, _, names, _⟩
    · exact Or.inl isNull
    · exact Or.inr (names ▸ Option.some_ne_none _)
  exact (each entry member).resolve_right (not_not_intro unknown)

/-- The entries whose names settings have. -/
def knownEntries (entries : Entries) : Entries :=
  entries.filter fun entry => (Setting.ofSpelling? entry.1).isSome

/-- Entries without values under unknown names might as well not be there. -/
theorem foldlM_knownEntries
    (nulls :
      ∀ entry ∈ entries,
        Setting.ofSpelling? entry.1 = none → entry.2.isNull = true)
    (settings : Settings) :
    entries.foldlM assignEntry settings =
      (knownEntries entries).foldlM assignEntry settings := by
  induction entries generalizing settings with
  | nil =>
      rfl
  | cons entry rest inductionHypothesis =>
      obtain ⟨nullFirst, nullRest⟩ := List.forall_mem_cons.mp nulls
      unfold knownEntries at inductionHypothesis ⊢
      cases names : Setting.ofSpelling? entry.1 with
      | none =>
          have passedOver : settings.assignEntry entry = .ok settings :=
            assignEntry_of_null (nullFirst names)
          rw [List.filter_cons_of_neg (by simp [names]), List.foldlM_cons,
            passedOver]
          exact inductionHypothesis nullRest settings
      | some setting =>
          rw [List.filter_cons_of_pos (by simp [names]), List.foldlM_cons,
            List.foldlM_cons]
          exact bind_congr (inductionHypothesis nullRest)

/-- An entry has its name and its value from a key of the mapping. -/
theorem mem_of_mem_entriesOf
    {entry : Text × Datum}
    (member : entry ∈ entriesOf used) :
    ∃ key, (key, entry.2) ∈ used ∧ key.toText = entry.1 := by
  obtain ⟨before, after, shape, _⟩ := Entries.mem_ofPairs.mp member
  have listed : entry ∈ used.map fun entry => (entry.1.toText, entry.2) := by
    rw [shape]
    exact List.mem_append_right before List.mem_cons_self
  obtain ⟨⟨key, value⟩, inUsed, rfl⟩ := List.mem_map.mp listed
  exact ⟨key, inUsed, rfl⟩

theorem exists_mem_entriesOf
    {entry : Scalar × Datum}
    (member : entry ∈ used) :
    ∃ named ∈ entriesOf used, named.1 = entry.1.toText := by
  have listed : entry.1.toText ∈ (entriesOf used).map Prod.fst := by
    rw [entriesOf, Entries.names_ofPairs, List.mem_eraseDups, List.map_map]
    exact List.mem_map_of_mem member
  exact List.mem_map.mp listed

end Entries

/-- A key is an integer with too many digits to be written. -/
def HasLongName (mapping : List (Scalar × Datum)) : Prop :=
  ∃ entry ∈ mapping, entry.1.isLongInteger = true

/-- A key has the text that stands for the settings themselves. -/
def HasReservedName (mapping : List (Scalar × Datum)) : Prop :=
  ∃ entry ∈ mapping, entry.1.toText = reservedSpelling

/-- A text that names no setting has a value; of several keys with the text the last counts. -/
def HasUnknownValue (mapping : List (Scalar × Datum)) : Prop :=
  ∃ entry ∈ entriesOf mapping,
    Setting.ofSpelling? entry.1 = none ∧ entry.2.isNull = false

/-- All integers can be written. -/
def IsWritable (mapping : List (Scalar × Datum)) : Prop :=
  ∀ entry ∈ mapping, entry.2.holdsLongInteger = false

/--
A mapping with a value under an unknown name fails, and the failure is reported
as one of the settings, if it can be written.  Unknown names without values
change nothing.  The reserved name and names that cannot be written are failures
of other kinds, also without values.
-/
theorem unknown_name_fails_unless_null
    (isUsed : settingsMapping mapping = .ok used) :
    (HasLongName used → ofMapping mapping = .error .longName) ∧
      (¬HasLongName used →
        HasReservedName used →
        ofMapping mapping = .error .reserved) ∧
      (¬HasLongName used →
        ¬HasReservedName used →
        HasUnknownValue used →
        ∃ fault,
          ofMapping mapping = .error fault ∧
            (IsWritable used →
              Trouble.ofSettings fault =
                .failure (.settings fault.message))) ∧
      (¬HasLongName used →
        ¬HasReservedName used →
        ¬HasUnknownValue used →
        ofMapping mapping = initial.merge (knownEntries (entriesOf used))) := by
  have merged
      (noLongName : ¬HasLongName used) :
      ofMapping mapping = initial.merge (entriesOf used) := by
    refine ofMapping_eq_merge isUsed fun entry member => ?_
    exact Bool.eq_false_iff.mpr fun isLong => noLongName ⟨entry, member, isLong⟩
  have unreserved
      (noReservedName : ¬HasReservedName used) :
      ∀ entry ∈ entriesOf used, entry.1 ≠ reservedSpelling := by
    intro entry member isReserved
    obtain ⟨key, inUsed, isName⟩ := mem_of_mem_entriesOf member
    exact noReservedName ⟨_, inUsed, isName.trans isReserved⟩
  refine ⟨?_, ?_, ?_, ?_⟩
  · rintro ⟨entry, member, isLong⟩
    exact ofMapping_of_longName isUsed member isLong
  · rintro noLongName ⟨entry, member, isReserved⟩
    obtain ⟨named, inEntries, isName⟩ := exists_mem_entriesOf member
    rw [merged noLongName]
    exact merge_of_reserved inEntries (isName.trans isReserved)
  · rintro noLongName noReservedName ⟨entry, member, unknown, present⟩
    rw [merged noLongName, merge_of_unreserved (unreserved noReservedName)]
    cases result : (entriesOf used).foldlM assignEntry initial with
    | ok final =>
        have isNull := null_of_taken result member unknown
        cases present.symm.trans isNull
    | error fault =>
        refine ⟨fault, rfl, fun writable => ?_⟩
        obtain ⟨entry, inEntries, isFault⟩ := foldlM_fails initial fault result
        obtain ⟨key, inUsed, _⟩ := mem_of_mem_entriesOf inEntries
        exact reported_of_faultOf isFault (writable _ inUsed)
  · intro noLongName noReservedName noUnknownValue
    have nulls :
        ∀ entry ∈ entriesOf used,
          Setting.ofSpelling? entry.1 = none → entry.2.isNull = true := by
      intro entry member unknown
      by_contra present
      exact noUnknownValue
        ⟨entry, member, unknown, Bool.eq_false_iff.mpr present⟩
    have knownUnreserved :
        ∀ entry ∈ knownEntries (entriesOf used),
          entry.1 ≠ reservedSpelling :=
      fun entry member =>
        unreserved noReservedName entry (List.mem_of_mem_filter member)
    rw [merged noLongName, merge_of_unreserved (unreserved noReservedName),
      merge_of_unreserved knownUnreserved, foldlM_knownEntries nulls]

/-- A section with a misspelled name behind a setting. -/
def misspelledFlag (value : Datum) : List (Scalar × Datum) :=
  [(.text sectionName,
    .map [(.text "classesDirs", .text "out"), (.text "failOnUnusdKeys", value)])]

theorem unknown_name_fails_unless_null_misspelled :
    (∃ fault,
      ofMapping (misspelledFlag (.scalar (.bool false))) = .error fault ∧
        Trouble.ofSettings fault = .failure (.settings fault.message)) ∧
      ofMapping (misspelledFlag .null) =
        .ok { initial with classesDirs := ["out"] } := by
  obtain ⟨_, _, fails, _⟩ :=
    unknown_name_fails_unless_null
      (show settingsMapping (misspelledFlag (.scalar (.bool false))) = .ok _ from rfl)
  obtain ⟨_, _, _, passes⟩ :=
    unknown_name_fails_unless_null
      (show settingsMapping (misspelledFlag .null) = .ok _ from rfl)
  obtain ⟨fault, failed, reported⟩ :=
    fails (by unfold HasLongName; decide) (by unfold HasReservedName; decide)
      (by unfold HasUnknownValue; decide)
  refine ⟨⟨fault, failed, reported (by unfold IsWritable; decide)⟩, ?_⟩
  rw [passes (by unfold HasLongName; decide) (by unfold HasReservedName; decide)
    (by unfold HasUnknownValue; decide)]
  rfl

/-- A misspelled name without a value. -/
def bareMisspelling : Scalar × Datum :=
  (.text "failOnUnusdKeys", .null)

/-- The reserved name with a value. -/
def reservedEntry : Scalar × Datum :=
  (.text reservedSpelling, .scalar (.int 1))

/-- Neither name is that of a setting, but one passes, and one fails in its own way. -/
theorem unknown_name_passes_misspelled :
    settingsMapping [bareMisspelling] = .ok [bareMisspelling] ∧
      Setting.ofSpelling? bareMisspelling.1.toText = none ∧
      ofMapping [bareMisspelling] = .ok initial ∧
      settingsMapping [reservedEntry] = .ok [reservedEntry] ∧
      Setting.ofSpelling? reservedEntry.1.toText = none ∧
      (ofMapping [reservedEntry]).mapError Trouble.ofSettings =
        .error .reservedSetting := by
  refine ⟨rfl, by decide, rfl, rfl, by decide, rfl⟩

end Settings

end KeyAudit
