import KeyAudit.Proofs.Outcome
import KeyAudit.Settings

namespace KeyAudit.Settings

/-!
# Entries that are taken over

Taking entries over goes through them in order.  An entry without a value is
passed over, one that names no setting stops it, and any other entry gives its
setting a value.  The entries of a mapping are those of the section for settings,
if it has one, with the texts of the keys as names.
-/

variable {settings next : Settings}
variable {setting : Setting}
variable {spelling : Text}
variable {value : Datum}

theorem assignEntry_of_null
    (isNull : value.isNull = true) :
    settings.assignEntry (spelling, value) = .ok settings :=
  if_pos isNull

theorem assignEntry_of_unknown
    (present : value.isNull = false)
    (unknown : Setting.ofSpelling? spelling = none) :
    settings.assignEntry (spelling, value) = .error (.unknown spelling) := by
  simp only [assignEntry, present, Bool.false_eq_true, if_false, unknown]

theorem assignEntry_of_names
    (present : value.isNull = false)
    (names : Setting.ofSpelling? spelling = some setting) :
    settings.assignEntry (spelling, value) = settings.assign setting value := by
  simp only [assignEntry, present, Bool.false_eq_true, if_false, names]

/-- An entry that is taken over is passed over or gives the setting that it names a value. -/
theorem assignEntry_cases
    {entry : Text × Datum}
    (taken : settings.assignEntry entry = .ok next) :
    entry.2.isNull = true ∧ next = settings ∨
      entry.2.isNull = false ∧
        ∃ setting,
          Setting.ofSpelling? entry.1 = some setting ∧
            settings.assign setting entry.2 = .ok next := by
  obtain ⟨spelling, value⟩ := entry
  cases present : value.isNull with
  | true =>
      rw [assignEntry_of_null present] at taken
      cases taken
      exact Or.inl ⟨rfl, rfl⟩
  | false =>
      cases names : Setting.ofSpelling? spelling with
      | none =>
          rw [assignEntry_of_unknown present names] at taken
          cases taken
      | some setting =>
          rw [assignEntry_of_names present names] at taken
          exact Or.inr ⟨rfl, setting, rfl, taken⟩

theorem merge_of_unreserved
    {entries : Entries}
    (unreserved : ∀ entry ∈ entries, entry.1 ≠ reservedSpelling) :
    settings.merge entries = entries.foldlM assignEntry settings := by
  refine if_neg ?_
  rw [List.any_eq_true]
  rintro ⟨entry, member, isReserved⟩
  exact unreserved entry member (of_decide_eq_true isReserved)

theorem merge_of_reserved
    {entries : Entries}
    {entry : Text × Datum}
    (member : entry ∈ entries)
    (isReserved : entry.1 = reservedSpelling) :
    settings.merge entries = .error .reserved := by
  refine if_pos ?_
  rw [List.any_eq_true]
  exact ⟨entry, member, decide_eq_true isReserved⟩

/-- Settings come from taking entries over one after the other. -/
theorem foldlM_of_merge
    {entries : Entries}
    (merged : settings.merge entries = .ok next) :
    entries.foldlM assignEntry settings = .ok next := by
  unfold merge at merged
  split at merged
  · cases merged
  · exact merged

/-- The entries of a mapping by the texts of its keys. -/
def entriesOf (mapping : List (Scalar × Datum)) : Entries :=
  Entries.ofPairs (mapping.map fun entry => (entry.1.toText, entry.2))

section Mapping

variable {mapping used : List (Scalar × Datum)}

theorem ofMapping_of_longName
    (isUsed : settingsMapping mapping = .ok used)
    {entry : Scalar × Datum}
    (member : entry ∈ used)
    (isLong : entry.1.isLongInteger = true) :
    ofMapping mapping = .error .longName := by
  simp only [ofMapping, isUsed, bind, Except.bind]
  rw [if_pos (List.any_eq_true.mpr ⟨entry, member, isLong⟩)]
  rfl

theorem ofMapping_eq_merge
    (isUsed : settingsMapping mapping = .ok used)
    (writable : ∀ entry ∈ used, entry.1.isLongInteger = false) :
    ofMapping mapping = initial.merge (entriesOf used) := by
  simp only [ofMapping, isUsed, bind, Except.bind]
  rw [if_neg]
  · rfl
  · rw [List.any_eq_true]
    rintro ⟨entry, member, isLong⟩
    exact Bool.false_ne_true ((writable entry member).symm.trans isLong)

end Mapping

end KeyAudit.Settings
