import KeyAudit.Settings
import Mathlib.Data.List.Basic
import Mathlib.Data.List.Nodup

namespace KeyAudit.Setting

/-!
# The spellings of settings

The name of a setting may be spelled with hyphens for underscores and with
capitals for letters behind underscores, in any mixture.  Every such spelling
names the setting and no other one.
-/

/-- An underscore or a small letter, which are all that names consist of. -/
def isNamePoint (point : CodePoint) : Bool :=
  point = CodePoint.ofChar '_' || (0x61 ≤ point.val && point.val ≤ 0x7A)

/-- Whether a capital is that of a small letter. -/
def IsCapitalOf (capital letter : CodePoint) : Prop :=
  capital.isCapital = true ∧ letter.val = capital.val + 0x20

/-- The ways to spell a name: every underscore may be a hyphen or give way to a capital. -/
inductive Respelling : Text → Text → Prop where
  | done : Respelling [] []
  | same
      {name spelling : Text}
      (point : CodePoint)
      (rest : Respelling name spelling) :
      Respelling (point :: name) (point :: spelling)
  | hyphen
      {name spelling : Text}
      (rest : Respelling name spelling) :
      Respelling (CodePoint.ofChar '_' :: name) (CodePoint.ofChar '-' :: spelling)
  | capital
      {name spelling : Text}
      {letter capital : CodePoint}
      (isCapital : IsCapitalOf capital letter)
      (rest : Respelling name spelling) :
      Respelling (CodePoint.ofChar '_' :: letter :: name) (capital :: spelling)

section Points

variable {point letter capital : CodePoint}

/-- A point of names is neither a hyphen nor one that lower case changes. -/
theorem namePoint_plain
    (isName : isNamePoint point = true) :
    point.isCapital = false ∧ point.val ≠ 0x212A ∧
      point ≠ CodePoint.ofChar '-' := by
  have codes : point.val = 0x5F ∨ 0x61 ≤ point.val ∧ point.val ≤ 0x7A := by
    simp only [isNamePoint, Bool.or_eq_true, Bool.and_eq_true,
      decide_eq_true_eq] at isName
    rcases isName with rfl | isLetter
    · exact Or.inl rfl
    · exact Or.inr isLetter
  refine ⟨?_, by omega, ?_⟩
  · simp only [CodePoint.isCapital, Bool.and_eq_false_iff,
      decide_eq_false_iff_not]
    omega
  · rintro rfl
    have hyphen : (CodePoint.ofChar '-').val = 0x2D := rfl
    omega

theorem lowerCase_of_namePoint
    (isName : isNamePoint point = true)
    (rest : Text) :
    Text.lowerCase (point :: rest) = point :: Text.lowerCase rest := by
  obtain ⟨notCapital, notKelvin, _⟩ := namePoint_plain isName
  simp [Text.lowerCase, notCapital, notKelvin]

theorem lowerCase_of_capital
    (isCapital : IsCapitalOf capital letter)
    (rest : Text) :
    Text.lowerCase (capital :: rest) = letter :: Text.lowerCase rest := by
  obtain ⟨isCapital, small⟩ := isCapital
  have lowered :
      (⟨(capital.val + 0x20) % 0x110000, Nat.mod_lt _ (by decide)⟩ : CodePoint) =
        letter := by
    apply Fin.ext
    change (capital.val + 0x20) % 0x110000 = letter.val
    rw [← small, Nat.mod_eq_of_lt letter.isLt]
  simp only [Text.lowerCase, List.map_cons, isCapital, if_true, lowered]

/-- The plain spelling behind the first point, where each capital gets an underscore. -/
def plainRest (spelling : Text) : Text :=
  Text.lowerCase (splitCapitals (Text.substitute '-' '_' spelling))

theorem plainRest_of_namePoint
    (isName : isNamePoint point = true)
    (rest : Text) :
    plainRest (point :: rest) = point :: plainRest rest := by
  obtain ⟨notCapital, _, notHyphen⟩ := namePoint_plain isName
  simp only [plainRest, Text.substitute, List.map_cons, if_neg notHyphen,
    splitCapitals, notCapital, Bool.false_eq_true, if_false,
    lowerCase_of_namePoint isName]

theorem plainRest_hyphen
    (rest : Text) :
    plainRest (CodePoint.ofChar '-' :: rest) =
      CodePoint.ofChar '_' :: plainRest rest :=
  rfl

theorem plainRest_capital
    (isCapital : IsCapitalOf capital letter)
    (rest : Text) :
    plainRest (capital :: rest) =
      CodePoint.ofChar '_' :: letter :: plainRest rest := by
  have notHyphen : capital ≠ CodePoint.ofChar '-' := by
    rintro rfl
    cases isCapital.1
  have underscore : isNamePoint (CodePoint.ofChar '_') = true := rfl
  simp only [plainRest, Text.substitute, List.map_cons, if_neg notHyphen,
    splitCapitals, isCapital.1, if_true, lowerCase_of_namePoint underscore,
    lowerCase_of_capital isCapital]

end Points

/-- Behind the first point, hyphens and capitals turn into the underscores of the name. -/
theorem Respelling.plainRest_eq
    {name spelling : Text}
    (respelling : Respelling name spelling)
    (named : name.all isNamePoint = true) :
    plainRest spelling = name := by
  induction respelling with
  | done =>
      rfl
  | same point rest inductionHypothesis =>
      obtain ⟨isName, named⟩ := Bool.and_eq_true_iff.mp named
      rw [plainRest_of_namePoint isName, inductionHypothesis named]
  | hyphen rest inductionHypothesis =>
      obtain ⟨_, named⟩ := Bool.and_eq_true_iff.mp named
      rw [plainRest_hyphen, inductionHypothesis named]
  | capital isCapital rest inductionHypothesis =>
      obtain ⟨_, named⟩ := Bool.and_eq_true_iff.mp named
      obtain ⟨_, named⟩ := Bool.and_eq_true_iff.mp named
      rw [plainRest_capital isCapital, inductionHypothesis named]

/-- Names begin with a small letter, so the first point of a spelling is that of the name. -/
theorem Respelling.plainSpelling_eq
    {name spelling : Text}
    (respelling : Respelling name spelling)
    (named : name.all isNamePoint = true)
    (begins : name.head? ≠ some (CodePoint.ofChar '_')) :
    plainSpelling spelling = name := by
  cases respelling with
  | done =>
      rfl
  | same point rest =>
      obtain ⟨isName, named⟩ := Bool.and_eq_true_iff.mp named
      obtain ⟨_, _, notHyphen⟩ := namePoint_plain isName
      have shape (spelling : Text) :
          plainSpelling (point :: spelling) = point :: plainRest spelling := by
        simp only [plainSpelling, Text.substitute, List.map_cons,
          if_neg notHyphen, lowerCase_of_namePoint isName]
        rfl
      rw [shape, rest.plainRest_eq named]
  | hyphen rest =>
      exact (begins rfl).elim
  | capital isCapital rest =>
      exact (begins rfl).elim

theorem mem_all
    (setting : Setting) :
    setting ∈ all := by
  cases setting <;> decide

theorem names_nodup :
    (all.map fun setting => Text.ofString setting.name).Nodup := by
  decide

theorem plainSpelling_of_names
    {spelling : Text}
    {setting : Setting}
    (found : ofSpelling? spelling = some setting) :
    plainSpelling spelling = Text.ofString setting.name := by
  unfold ofSpelling? at found
  have isName := List.find?_some found
  exact (beq_iff_eq.mp isName).symm

/-- A spelling names a setting exactly if its plain form is the name. -/
theorem ofSpelling?_eq_some_iff
    {spelling : Text}
    {setting : Setting} :
    ofSpelling? spelling = some setting ↔
      plainSpelling spelling = Text.ofString setting.name := by
  refine ⟨plainSpelling_of_names, fun plain => ?_⟩
  have present : (ofSpelling? spelling).isSome = true := by
    rw [ofSpelling?, List.find?_isSome]
    exact ⟨setting, mem_all setting, beq_iff_eq.mpr plain.symm⟩
  obtain ⟨other, found⟩ := Option.isSome_iff_exists.mp present
  have sameName : Text.ofString other.name = Text.ofString setting.name :=
    (plainSpelling_of_names found).symm.trans plain
  rw [found, List.inj_on_of_nodup_map names_nodup (mem_all other)
    (mem_all setting) sameName]

/-- The spellings of the name of a setting name this setting. -/
theorem Respelling.names
    {setting : Setting}
    {spelling : Text}
    (respelling : Respelling (Text.ofString setting.name) spelling) :
    ofSpelling? spelling = some setting := by
  rw [ofSpelling?_eq_some_iff]
  apply respelling.plainSpelling_eq
  · cases setting <;> decide
  · cases setting <;> decide

/-- Every letter behind an underscore as a capital in its place. -/
def camelCase : Text → Text
  | point :: letter :: rest =>
      if point = CodePoint.ofChar '_' ∧ 0x61 ≤ letter.val ∧ letter.val ≤ 0x7A then
        ⟨letter.val - 0x20, by omega⟩ :: camelCase rest
      else
        point :: camelCase (letter :: rest)
  | text => text

theorem respelling_self
    (name : Text) :
    Respelling name name := by
  induction name with
  | nil =>
      exact .done
  | cons point rest inductionHypothesis =>
      exact .same point inductionHypothesis

theorem respelling_hyphens
    (name : Text) :
    Respelling name (Text.substitute '_' '-' name) := by
  induction name with
  | nil =>
      exact .done
  | cons point rest inductionHypothesis =>
      unfold Text.substitute at inductionHypothesis ⊢
      rw [List.map_cons]
      split
      · rename_i isUnderscore
        rw [isUnderscore]
        exact .hyphen inductionHypothesis
      · exact .same point inductionHypothesis

theorem respelling_camelCase
    (name : Text) :
    Respelling name (camelCase name) := by
  fun_induction camelCase name with
  | case1 point letter rest isJoint inductionHypothesis =>
      obtain ⟨rfl, low, high⟩ := isJoint
      refine .capital ⟨?_, ?_⟩ inductionHypothesis
      · simp only [CodePoint.isCapital, Bool.and_eq_true, decide_eq_true_eq]
        omega
      · change letter.val = letter.val - 0x20 + 0x20
        omega
  | case2 point letter rest _ inductionHypothesis =>
      exact .same point inductionHypothesis
  | case3 text _ =>
      exact respelling_self text

end KeyAudit.Setting
