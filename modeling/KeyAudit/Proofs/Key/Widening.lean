import KeyAudit.Proofs.Key.Table
import KeyAudit.Proofs.Scan.Accounting
import KeyAudit.Proofs.Text.Trim

namespace KeyAudit

/-!
# Wider allow lists

Allow lists that name more classes and methods let more keys be found and
change nothing else.  What cannot be analysed does not depend on them, since no
key is looked up before a method is analysed, and looking a key up cannot fail.
-/

namespace CallSite

/--
Every name that is not blank has the normal form of one of the other names.
-/
def CoveredBy
    (normal : Text → Text)
    (names others : List Text) : Prop :=
  ∀ name ∈ names,
    name.isBlank = false →
    ∃ other ∈ others, normal other = normal name

/-- A name with blanks around it. -/
def Padded (name padded : Text) : Prop :=
  ∃ before after,
    before.isBlank = true ∧
      after.isBlank = true ∧ padded = before ++ (name ++ after)

/-- A class name with slashes in place of some of its dots. -/
def Slashed (name slashed : Text) : Prop :=
  List.Forall₂
    (fun point other =>
      other = point ∨
        point = CodePoint.ofChar '.' ∧ other = CodePoint.ofChar '/')
    name slashed

/-- Two spellings of one class name. -/
def SameOwner (name other : Text) : Prop :=
  Padded name other ∨ Slashed name other

/-- Lists that differ only in the order, number and spelling of their names. -/
inductive Respelled
    (Same : Text → Text → Prop) :
    List Text → List Text → Prop where
  | reordered
      {names others : List Text}
      (order : names.Perm others) :
      Respelled Same names others
  | repeated
      {name : Text}
      {names : List Text}
      (member : name ∈ names) :
      Respelled Same names (name :: names)
  | respelled
      {name other : Text}
      (same : Same name other)
      (before after : List Text) :
      Respelled Same (before ++ name :: after) (before ++ other :: after)
  | trans
      {names others thirds : List Text}
      (first : Respelled Same names others)
      (second : Respelled Same others thirds) :
      Respelled Same names thirds

section Names

variable {names others : List Text}
variable {normal : Text → Text}

theorem Respelled.mem_map
    {Same : Text → Text → Prop}
    (respelled : Respelled Same names others)
    (keeps : ∀ name other, Same name other → normal other = normal name)
    {text : Text} :
    text ∈ others.map normal ↔ text ∈ names.map normal := by
  induction respelled with
  | reordered order =>
      exact (order.map normal).mem_iff.symm
  | repeated member =>
      have present := List.mem_map_of_mem (f := normal) member
      rw [List.map_cons, List.mem_cons, or_iff_right_iff_imp]
      rintro rfl
      exact present
  | respelled same before after =>
      simp only [List.map_append, List.map_cons, keeps _ _ same]
  | trans _ _ firstHypothesis secondHypothesis =>
      exact secondHypothesis.trans firstHypothesis

/-- Lists that spell the same names cover each other. -/
theorem Respelled.covered
    {Same : Text → Text → Prop}
    (respelled : Respelled Same names others)
    (keeps : ∀ name other, Same name other → normal other = normal name) :
    CoveredBy normal names others ∧ CoveredBy normal others names := by
  refine ⟨?_, ?_⟩ <;> intro name member _
  · exact List.mem_map.mp
      ((respelled.mem_map keeps).mpr (List.mem_map_of_mem member))
  · exact List.mem_map.mp
      ((respelled.mem_map keeps).mp (List.mem_map_of_mem member))

end Names

theorem trim_of_padded
    {name padded : Text}
    (isPadded : Padded name padded) :
    padded.trim = name.trim := by
  obtain ⟨before, after, blankBefore, blankAfter, rfl⟩ := isPadded
  exact Text.trim_padded blankBefore blankAfter name

/-- Neither dots nor slashes are blank, so a name may be trimmed last. -/
theorem slashedName_eq
    (name : Text) :
    slashedName name = (Text.substitute '.' '/' name).trim := by
  unfold slashedName Text.substitute
  rw [Text.trim_map]
  intro point
  split
  · rename_i isDot
    rw [isDot]
    decide
  · rfl

theorem substitute_of_slashed
    {name slashed : Text}
    (isSlashed : Slashed name slashed) :
    Text.substitute '.' '/' slashed = Text.substitute '.' '/' name := by
  induction isSlashed with
  | nil =>
      rfl
  | cons alike _ inductionHypothesis =>
      unfold Text.substitute at inductionHypothesis ⊢
      rw [List.map_cons, List.map_cons, inductionHypothesis]
      rcases alike with rfl | ⟨rfl, rfl⟩
      · rfl
      · rfl

theorem slashedName_of_same
    {name other : Text}
    (same : SameOwner name other) :
    slashedName other = slashedName name := by
  rcases same with isPadded | isSlashed
  · rw [slashedName, slashedName, trim_of_padded isPadded]
  · rw [slashedName_eq, slashedName_eq, substitute_of_slashed isSlashed]

theorem slashedName_eq_nil_iff
    {name : Text} :
    slashedName name = [] ↔ name.isBlank = true := by
  rw [slashedName, Text.substitute, List.map_eq_nil_iff,
    Text.trim_eq_nil_iff]

section Sites

variable {owners methods moreOwners moreMethods : List Text}

theorem mem_wrappers
    {site : CallSite} :
    site ∈ wrappers owners methods ↔
      ∃ owner ∈ owners,
        owner.isBlank = false ∧
          ∃ method ∈ methods,
            method.isBlank = false ∧
              site = ⟨slashedName owner, method.trim, [], 0⟩ := by
  simp only [wrappers, List.mem_flatMap, List.mem_map,
    Text.mem_sortedDistinct, List.mem_filter, Bool.not_eq_true']
  constructor
  · rintro ⟨_, ⟨owner, ⟨isOwner, present⟩, rfl⟩, _,
      ⟨method, ⟨isMethod, named⟩, rfl⟩, rfl⟩
    exact ⟨owner, isOwner, present, method, isMethod, named, rfl⟩
  · rintro ⟨owner, isOwner, present, method, isMethod, named, rfl⟩
    exact
      ⟨_, ⟨owner, ⟨isOwner, present⟩, rfl⟩, _,
        ⟨method, ⟨isMethod, named⟩, rfl⟩, rfl⟩

/-- A name that covers one that is not blank is not blank itself. -/
theorem CoveredBy.present
    {normal : Text → Text}
    (empty : ∀ {name}, normal name = [] ↔ name.isBlank = true)
    {names others : List Text}
    (covered : CoveredBy normal names others)
    {name : Text}
    (member : name ∈ names)
    (present : name.isBlank = false) :
    ∃ other ∈ others,
      other.isBlank = false ∧ normal other = normal name := by
  obtain ⟨other, isOther, same⟩ := covered name member present
  refine ⟨other, isOther, ?_, same⟩
  rw [Bool.eq_false_iff] at present ⊢
  intro isBlank
  exact present (empty.mp (same ▸ empty.mpr isBlank))

/-- The call sites of wider allow lists include those of narrower ones. -/
theorem ofAllowLists_subset
    (ownersCovered : CoveredBy slashedName owners moreOwners)
    (methodsCovered : CoveredBy Text.trim methods moreMethods) :
    ofAllowLists owners methods ⊆
      ofAllowLists moreOwners moreMethods := by
  intro site member
  rcases List.mem_append.mp member with isBuiltin | isWrapper
  · exact List.mem_append_left _ isBuiltin
  · obtain ⟨owner, isOwner, present, method, isMethod, named, rfl⟩ :=
      mem_wrappers.mp isWrapper
    obtain ⟨otherOwner, isOtherOwner, otherPresent, sameOwner⟩ :=
      ownersCovered.present slashedName_eq_nil_iff isOwner present
    obtain ⟨otherMethod, isOtherMethod, otherNamed, sameMethod⟩ :=
      methodsCovered.present Text.trim_eq_nil_iff isMethod named
    refine List.mem_append_right _ (mem_wrappers.mpr ?_)
    refine
      ⟨otherOwner, isOtherOwner, otherPresent, otherMethod, isOtherMethod,
        otherNamed, ?_⟩
    rw [sameOwner, sameMethod]

end Sites

end CallSite

namespace Extractor

open CallSite

variable {owners methods moreOwners moreMethods : List Text}
variable {qualifier : Text}

theorem find?_of_wider
    (ownersCovered : CoveredBy slashedName owners moreOwners)
    (methodsCovered : CoveredBy Text.trim methods moreMethods)
    {member : Member}
    {site : CallSite}
    (found :
      (ofAllowLists owners methods qualifier).sites.find? member =
        some site) :
    ∃ other,
      (ofAllowLists moreOwners moreMethods qualifier).sites.find? member =
          some other ∧
        other.argument = site.argument := by
  simp only [ofAllowLists, CallSiteTable.find?_ofList] at found ⊢
  have isSite := List.mem_of_find?_eq_some found
  have accepts := List.find?_some found
  have isThere := ofAllowLists_subset ownersCovered methodsCovered isSite
  have present :
      ((CallSite.ofAllowLists moreOwners moreMethods).find? fun other =>
        other.accepts member).isSome = true :=
    List.find?_isSome.mpr ⟨site, isThere, accepts⟩
  obtain ⟨other, isOther⟩ := Option.isSome_iff_exists.mp present
  refine ⟨other, isOther, ?_⟩
  rw [argument_of_mem (List.mem_of_find?_eq_some isOther),
    argument_of_mem isSite]

/-- The key of a call depends only on the position of its argument. -/
theorem keyOfCall?_congr
    {extractor other : Extractor}
    (sameQualifier : other.qualifier = extractor.qualifier)
    {site otherSite : CallSite}
    (sameArgument : otherSite.argument = site.argument)
    (type : MethodType)
    (frame : Frame) :
    other.keyOfCall? type otherSite frame =
      extractor.keyOfCall? type site frame := by
  unfold keyOfCall? keyOfWord?
  rw [sameQualifier, sameArgument]

theorem keyAt?_of_wider
    (ownersCovered : CoveredBy slashedName owners moreOwners)
    (methodsCovered : CoveredBy Text.trim methods moreMethods)
    {instruction : Instruction}
    {frame : Frame}
    {key : Text}
    (told :
      (ofAllowLists owners methods qualifier).keyAt? instruction frame =
        .ok (some key)) :
    (ofAllowLists moreOwners moreMethods qualifier).keyAt? instruction
      frame = .ok (some key) := by
  obtain ⟨notDynamic, member, type, site, operand, typed, found, passes⟩ :=
    keyAt?_eq_some.mp told
  obtain ⟨other, foundToo, sameArgument⟩ :=
    find?_of_wider ownersCovered methodsCovered found
  have passesToo :
      (ofAllowLists moreOwners moreMethods qualifier).keyOfCall? type other
        frame = .ok (some key) := by
    rw [← passes]
    exact keyOfCall?_congr rfl sameArgument type frame
  exact keyAt?_eq_some.mpr
    ⟨notDynamic, member, type, other, operand, typed, foundToo, passesToo⟩

theorem keysOfMethod_of_wider
    (ownersCovered : CoveredBy slashedName owners moreOwners)
    (methodsCovered : CoveredBy Text.trim methods moreMethods)
    {pool : Pool}
    {method : Method}
    {keys : List Text}
    (told :
      (ofAllowLists owners methods qualifier).keysOfMethod pool method =
        .ok keys) :
    ∃ more,
      (ofAllowLists moreOwners moreMethods qualifier).keysOfMethod pool
          method = .ok more ∧
        keys ⊆ more := by
  unfold keysOfMethod at told ⊢
  cases hasBody : method.body with
  | none =>
      simp only [hasBody, Except.ok.injEq] at told
      exact ⟨[], rfl, by simp [← told]⟩
  | some body =>
      simp only [hasBody] at told
      obtain ⟨frames, analysed, toldIn⟩ := Outcome.bind_eq_ok.mp told
      obtain ⟨more, toldMore⟩ := keysIn_ok frames
      refine ⟨more, Outcome.bind_eq_ok.mpr ⟨frames, analysed, toldMore⟩, ?_⟩
      intro key member
      obtain ⟨index, instruction, frame, present, reached, invokes, passes⟩ :=
        (mem_keysIn toldIn).mp member
      exact (mem_keysIn toldMore).mpr
        ⟨index, instruction, frame, present, reached, invokes,
          keyAt?_of_wider ownersCovered methodsCovered passes⟩

/-- An extractor of some allow lists and some prefix. -/
def OfLists (extractor : Extractor) : Prop :=
  ∃ owners methods qualifier,
    extractor = ofAllowLists owners methods qualifier

section Alike

variable {first second : Extractor}

/-- Whether the keys of a method are told depends on the method alone. -/
theorem keysOfMethod_alike
    (ofLists : first.OfLists)
    (secondOfLists : second.OfLists)
    (pool : Pool)
    (method : Method) :
    (∃ keys others,
      first.keysOfMethod pool method = .ok keys ∧
        second.keysOfMethod pool method = .ok others) ∨
      ∃ fault,
        first.keysOfMethod pool method = .error (.method fault) ∧
          second.keysOfMethod pool method = .error (.method fault) := by
  obtain ⟨owners, methods, qualifier, rfl⟩ := ofLists
  obtain ⟨otherOwners, otherMethods, otherQualifier, rfl⟩ := secondOfLists
  unfold keysOfMethod
  cases method.body with
  | none =>
      exact Or.inl ⟨[], [], rfl, rfl⟩
  | some body =>
      -- Both analyses have the same limit, and no key is looked up before.
      cases analysed :
          MethodFrames.ofMethod pool method MethodFrames.defaultLimit with
      | error fault =>
          refine Or.inr ⟨fault, ?_, ?_⟩ <;>
            simp only [ofAllowLists, analysed] <;> rfl
      | ok frames =>
          obtain ⟨keys, told⟩ := keysIn_ok frames
          obtain ⟨others, toldOthers⟩ := keysIn_ok frames
          refine Or.inl ⟨keys, others, ?_, ?_⟩
          · exact Outcome.bind_eq_ok.mpr
              ⟨frames, Outcome.mapError_eq_ok.mpr analysed, told⟩
          · exact Outcome.bind_eq_ok.mpr
              ⟨frames, Outcome.mapError_eq_ok.mpr analysed, toldOthers⟩

theorem warning?_eq
    (ofLists : first.OfLists)
    (secondOfLists : second.OfLists) :
    first.warning? = second.warning? := by
  funext place
  unfold warning?
  rcases keysOfMethod_alike ofLists secondOfLists place.1.pool place.2 with
    ⟨keys, others, told, toldOthers⟩ | ⟨fault, failed, failedToo⟩
  · rw [told, toldOthers]
  · rw [failed, failedToo]

theorem isTold_eq
    (ofLists : first.OfLists)
    (secondOfLists : second.OfLists) :
    first.isTold = second.isTold := by
  funext place
  unfold isTold
  rcases keysOfMethod_alike ofLists secondOfLists place.1.pool place.2 with
    ⟨keys, others, told, toldOthers⟩ | ⟨fault, failed, failedToo⟩
  · rw [told, toldOthers]
    rfl
  · rw [failed, failedToo]

end Alike

theorem TellsKey.of_wider
    (ownersCovered : CoveredBy slashedName owners moreOwners)
    (methodsCovered : CoveredBy Text.trim methods moreMethods)
    {places : List (ClassFile × Method)}
    {key : Text}
    (tells : (ofAllowLists owners methods qualifier).TellsKey places key) :
    (ofAllowLists moreOwners moreMethods qualifier).TellsKey places key := by
  obtain ⟨place, isPlace, keys, told, isKey⟩ := tells
  obtain ⟨more, toldMore, isSubset⟩ :=
    keysOfMethod_of_wider ownersCovered methodsCovered told
  exact ⟨place, isPlace, more, toldMore, isSubset isKey⟩

/--
The keys of a class are told with any allow lists and any prefix, and the
diagnostics and the number of analysed methods are always the same.  With one
prefix, lists that cover others find all that the others find, and lists that
only spell the names of others differently find the same.
-/
theorem keysOfClass_of_wider
    (file : ClassFile)
    (owners methods : List Text)
    (qualifier : Text) :
    ∃ found,
      (ofAllowLists owners methods qualifier).keysOfClass file =
          .ok found ∧
        ∀ moreOwners moreMethods otherQualifier,
          ∃ more,
            (ofAllowLists moreOwners moreMethods
                otherQualifier).keysOfClass file = .ok more ∧
              more.diagnostics = found.diagnostics ∧
              more.analysed = found.analysed ∧
              (otherQualifier = qualifier →
                CoveredBy slashedName owners moreOwners →
                CoveredBy Text.trim methods moreMethods →
                found.keys ⊆ more.keys) ∧
              (otherQualifier = qualifier →
                Respelled SameOwner owners moreOwners →
                Respelled Padded methods moreMethods →
                ∀ key, key ∈ more.keys ↔ key ∈ found.keys) := by
  obtain ⟨found, told, accounts⟩ := keysOfClass_accounts file
  refine ⟨found, told, ?_⟩
  intro moreOwners moreMethods otherQualifier
  obtain ⟨more, toldMore, accountsMore⟩ := keysOfClass_accounts file
  have ofLists :
      (ofAllowLists owners methods qualifier).OfLists := ⟨_, _, _, rfl⟩
  have moreOfLists :
      (ofAllowLists moreOwners moreMethods otherQualifier).OfLists :=
    ⟨_, _, _, rfl⟩
  refine ⟨more, toldMore, ?_, ?_, ?_, ?_⟩
  · rw [accountsMore.warningsEq, accounts.warningsEq,
      warning?_eq moreOfLists ofLists]
  · rw [accountsMore.analysedEq, accounts.analysedEq,
      isTold_eq moreOfLists ofLists]
  · rintro rfl ownersCovered methodsCovered key isKey
    exact accountsMore.keysEq.mpr
      ((accounts.keysEq.mp isKey).of_wider ownersCovered methodsCovered)
  · rintro rfl ownersRespelled methodsRespelled key
    obtain ⟨owners, moreOwners⟩ :=
      ownersRespelled.covered fun _ _ => slashedName_of_same
    obtain ⟨methods, moreMethods⟩ :=
      methodsRespelled.covered fun _ _ => trim_of_padded
    rw [accountsMore.keysEq, accounts.keysEq]
    constructor
    · intro tells
      exact tells.of_wider moreOwners moreMethods
    · intro tells
      exact tells.of_wider owners methods

/-- A class with one method, which calls a wrapper. -/
def menuFile : ClassFile :=
  ⟨"Menu", none, 0, 52, 0, branchingPool, [branchingMethod], ""⟩

/-- The key of the wrapper is found, also with more names or names spelled otherwise. -/
theorem keysOfClass_of_wider_menu :
    ∃ found more same,
      (ofAllowLists ["Menu"] ["show"] "").keysOfClass menuFile =
          .ok found ∧
        Text.ofString "menu.title" ∈ found.keys ∧
        (ofAllowLists ["de.Menu", " Menu"] ["hide", "show"]
            "").keysOfClass menuFile = .ok more ∧
          found.keys ⊆ more.keys ∧
        (ofAllowLists [" Menu"] ["show", "show"] "").keysOfClass menuFile =
            .ok same ∧
          (∀ key, key ∈ same.keys ↔ key ∈ found.keys) ∧
          same.diagnostics = found.diagnostics := by
  have evaluated :
      (ofAllowLists ["Menu"] ["show"] "").keysOfClass menuFile =
        .ok ⟨"Menu", ["menu.title"], [], 1⟩ := by
    decide +kernel
  obtain ⟨found, told, others⟩ :=
    keysOfClass_of_wider menuFile ["Menu"] ["show"] ""
  obtain ⟨more, toldMore, _, _, wider, _⟩ :=
    others ["de.Menu", " Menu"] ["hide", "show"] ""
  obtain ⟨same, toldSame, sameDiagnostics, _, _, sameKeys⟩ :=
    others [" Menu"] ["show", "show"] ""
  have isKey : Text.ofString "menu.title" ∈ found.keys := by
    rw [evaluated] at told
    cases told
    exact List.mem_singleton_self _
  have ownersCovered :
      CoveredBy slashedName ["Menu"] ["de.Menu", " Menu"] := by
    unfold CoveredBy
    decide
  have methodsCovered : CoveredBy Text.trim ["show"] ["hide", "show"] := by
    unfold CoveredBy
    decide
  have padded : Padded "Menu" " Menu" :=
    ⟨" ", [], by decide, by decide, by decide⟩
  exact
    ⟨found, more, same, told, isKey, toldMore,
      wider rfl ownersCovered methodsCovered, toldSame,
      sameKeys rfl (.respelled (.inl padded) [] [])
        (.repeated List.mem_cons_self),
      sameDiagnostics⟩

end Extractor

end KeyAudit
