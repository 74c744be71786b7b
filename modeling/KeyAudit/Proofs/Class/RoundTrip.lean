import KeyAudit.Proofs.Class.Image

namespace KeyAudit

/-!
# Reading undoes the images of class files

Each part of an image is read back where its bytes stand, whatever follows.  The
parts are put together as the image is, so a class is read back from its bytes.
-/

namespace Reading

open Cursor

theorem byte_reads
    (byte : UInt8)
    (offset : Nat) :
    Reads u1 offset [byte] byte.toNat := by
  have read := (take_reads [byte] offset).map Bytes.toNat
  rwa [show Bytes.toNat [byte] = byte.toNat by simp [Bytes.toNat]] at read

theorem short_reads
    (value : UInt16)
    (offset : Nat) :
    Reads u2 offset (Bytes.short value) value.toNat :=
  number_reads value.toNat_lt offset

theorem lookup_reads
    {Value : Type}
    {result : Except ClassFault Value}
    {value : Value}
    (found : result = .ok value)
    (offset : Nat) :
    Reads (lookup result) offset [] value := by
  intro rest
  subst found
  rfl

theorem counted_reads
    {Item Value : Type}
    {step : Reading Value}
    {write : Item → Bytes}
    {items : List Item}
    {values : List Value}
    (fits : items.length < 0x10000)
    (each :
      List.Forall₂
        (fun item value =>
          ∀ offset, Reads step offset (write item) value)
        items values)
    (offset : Nat) :
    Reads (counted step) offset (Bytes.counted write items) values :=
  (number_reads fits offset).bind
    (Reads.repeated (fun count => times count step) rfl (fun _ => rfl)
      each _)

theorem counted_map_reads
    {Item Value : Type}
    {step : Reading Value}
    {write : Item → Bytes}
    {value : Item → Value}
    (each : ∀ item offset, Reads step offset (write item) (value item))
    (items : ShortList Item)
    (offset : Nat) :
    Reads (counted step) offset (Bytes.counted write items.val)
      (items.val.map value) := by
  refine counted_reads items.property ?_ offset
  rw [List.forall₂_map_right_iff, List.forall₂_same]
  exact fun item _ => each item

/-- A step that reads all bytes gives its value, and bytes behind do not matter. -/
theorem run_of_reads
    {Value : Type}
    {step : Reading Value}
    {bytes : Bytes}
    {value : Value}
    (reads : Reads step 0 bytes value)
    (trailing : Bytes) :
    run step (bytes ++ trailing) = .ok value := by
  simp only [run, StateT.run, reads trailing]

end Reading

namespace ClassFile

open Cursor Reading

section Constants

theorem tagged_reads
    (image : ConstantImage)
    (index offset : Nat) :
    Reads (readTagged index) offset image.bytes image.entry := by
  cases image with
  | utf8 payload text decodes fits =>
      refine (byte_reads 1 offset).bind ?_
      refine (number_reads fits _).bind ?_
      refine (take_reads payload _).andThen ?_
      rw [decodes]
      exact Reads.value _ _
  | integer value =>
      exact (byte_reads 3 offset).bind
        ((signedNumber_reads ⟨value.le_toInt, value.toInt_lt⟩ _).map _)
  | float bits =>
      have fits : bits.toNat < Nat.pow 256 4 := bits.toNat_lt
      have read :=
        (number_reads fits (offset + 1)).map fun number =>
          PoolEntry.float (.ofNat number)
      rw [UInt32.ofNat_toNat] at read
      exact (byte_reads 4 offset).bind read
  | long value =>
      exact (byte_reads 5 offset).bind
        ((signedNumber_reads ⟨value.le_toInt, value.toInt_lt⟩ _).map _)
  | double bits =>
      have fits : bits.toNat < Nat.pow 256 8 := bits.toNat_lt
      have read :=
        (number_reads fits (offset + 1)).map fun number =>
          PoolEntry.double (.ofNat number)
      rw [UInt64.ofNat_toNat] at read
      exact (byte_reads 6 offset).bind read
  | classRef name =>
      exact (byte_reads 7 offset).bind ((short_reads _ _).map _)
  | string text =>
      exact (byte_reads 8 offset).bind ((short_reads _ _).map _)
  | methodType descriptor =>
      exact (byte_reads 16 offset).bind ((short_reads _ _).map _)
  | moduleRef name =>
      exact (byte_reads 19 offset).bind ((short_reads _ _).map _)
  | packageRef name =>
      exact (byte_reads 20 offset).bind ((short_reads _ _).map _)
  | methodHandle kind reference =>
      exact (byte_reads 15 offset).bind
        ((byte_reads _ _).bind ((short_reads _ _).map _))
  | fieldRef owner member =>
      exact (byte_reads 9 offset).bind
        ((short_reads _ _).bind ((short_reads _ _).map _))
  | methodRef owner member =>
      exact (byte_reads 10 offset).bind
        ((short_reads _ _).bind ((short_reads _ _).map _))
  | interfaceMethodRef owner member =>
      exact (byte_reads 11 offset).bind
        ((short_reads _ _).bind ((short_reads _ _).map _))
  | nameAndType name descriptor =>
      exact (byte_reads 12 offset).bind
        ((short_reads _ _).bind ((short_reads _ _).map _))
  | dynamic bootstrap member =>
      exact (byte_reads 17 offset).bind
        ((short_reads _ _).bind ((short_reads _ _).map _))
  | invokeDynamic bootstrap member =>
      exact (byte_reads 18 offset).bind
        ((short_reads _ _).bind ((short_reads _ _).map _))

/-- An entry takes two slots if it is wide, and one if it is not. -/
theorem slots_eq
    (image : ConstantImage) :
    image.slots =
      if image.entry.tag.isWide then [some image.entry, none]
      else [some image.entry] := by
  cases image <;> rfl

/-- The next slot is skipped after a wide entry, unless there is none. -/
theorem readSlots_succ
    (count index : Nat) :
    readSlots (count + 1) index = do
      let entry ← readTagged index
      if entry.tag.isWide ∧ 0 < count then
        return some entry :: none :: (← readSlots (count - 1) (index + 2))
      else
        return some entry :: (← readSlots count (index + 1)) := by
  cases count <;> simp [readSlots]

/-- All entries are read back into the slots that they take. -/
theorem slots_read
    (constants : List ConstantImage)
    (index offset : Nat) :
    Reads
      (readSlots (constants.flatMap ConstantImage.slots).length index)
      offset (constants.flatMap ConstantImage.bytes)
      (constants.flatMap ConstantImage.slots) := by
  induction constants generalizing index offset with
  | nil =>
      exact Reads.value _ _
  | cons image constants inductionHypothesis =>
      have slots := slots_eq image
      rw [List.flatMap_cons, List.flatMap_cons]
      by_cases wide : image.entry.tag.isWide = true
      · -- The slot behind is counted, so the reader always has one to skip.
        rw [if_pos wide] at slots
        rw [slots, List.length_append, Nat.add_comm,
          show [some image.entry, none].length = 1 + 1 from rfl,
          ← Nat.add_assoc, readSlots_succ]
        refine (tagged_reads image index offset).bind ?_
        rw [if_pos ⟨wide, Nat.succ_pos _⟩]
        exact (inductionHypothesis _ _).map _
      · rw [if_neg wide] at slots
        rw [slots, List.length_append, Nat.add_comm, List.length_singleton,
          readSlots_succ]
        refine (tagged_reads image index offset).bind ?_
        rw [if_neg fun both => wide both.1]
        exact (inductionHypothesis _ _).map _

theorem pool_reads
    (image : ClassImage)
    (offset : Nat) :
    Reads readPool offset image.poolBytes image.pool := by
  refine (number_reads image.fits offset).bind ?_
  exact (slots_read image.constants 1 _).map fun slots =>
    Pool.mk (none :: slots)

end Constants

section Members

variable {pool : Pool}

theorem attribute_reads
    (image : AttributeImage)
    (offset : Nat) :
    Reads skipAttribute offset image.bytes () :=
  (short_reads _ _).bind
    ((number_reads image.fits _).bind ((take_reads _ _).map _))

theorem attributes_read
    (images : ShortList AttributeImage)
    (offset : Nat) :
    Reads (counted skipAttribute) offset
      (Bytes.counted AttributeImage.bytes images.val)
      (images.val.map fun _ => ()) :=
  counted_map_reads attribute_reads images offset

theorem field_reads
    (image : FieldImage)
    (offset : Nat) :
    Reads skipField offset image.bytes () := by
  have head :=
    take_reads
      (Bytes.short image.access ++ Bytes.short image.name ++
        Bytes.short image.descriptor)
      offset
  rw [show List.length _ = 6 by simp [Bytes.short]] at head
  exact head.bind ((attributes_read image.attributes _).map _)

/-- An index that may be zero leads to exactly the class that it stands for. -/
theorem optionalClass_eq_ok
    {index : Nat}
    {name : Option Text} :
    optionalClass pool index = .ok name ↔
      pool.HasOptionalClass index name := by
  unfold optionalClass
  by_cases zero : index = 0
  · rw [if_pos zero]
    cases name with
    | none =>
        exact iff_of_true rfl zero
    | some name =>
        refine iff_of_false nofun ?_
        rintro ⟨_, ⟨positive, _⟩, _⟩
        omega
  · rw [if_neg zero, Outcome.map_eq_ok]
    cases name with
    | none =>
        refine iff_of_false ?_ zero
        rintro ⟨_, _, absurd⟩
        cases absurd
    | some name =>
        rw [Pool.HasOptionalClass, ← Pool.className_eq_ok]
        simp

theorem handler_reads
    {image : HandlerImage}
    {handler : Handler}
    (describes : image.Describes pool handler)
    (offset : Nat) :
    Reads (readHandler pool) offset image.bytes handler := by
  obtain ⟨start, stop, target, catchType⟩ := handler
  obtain ⟨rfl, rfl, rfl, hasClass⟩ := describes
  refine (short_reads _ _).bind ((short_reads _ _).bind
    ((short_reads _ _).bind ((short_reads _ _).andThen ?_)))
  exact (lookup_reads (optionalClass_eq_ok.mpr hasClass) _).map _

theorem body_reads
    {image : BodyImage}
    {body : Body}
    (describes : image.Describes pool body)
    (offset : Nat) :
    Reads (readBody pool) offset image.bytes body := by
  obtain ⟨maxStack, maxLocals, code, handlers⟩ := body
  obtain ⟨rfl, rfl, rfl, rows⟩ := describes
  refine (short_reads _ _).bind ((short_reads _ _).bind ?_)
  refine (number_reads image.fits _).bind ?_
  refine (take_reads _ _).bind ?_
  have each := rows.imp fun _ _ describes => handler_reads describes
  refine (counted_reads image.handlers.property each _).bind ?_
  exact (attributes_read image.attributes _).map _

/-- A code attribute is read back with its body. -/
theorem code_reads
    {image : CodeImage}
    {body : Body}
    (named : pool.HasText image.name.toNat "Code")
    (describes : image.body.Describes pool body)
    (offset : Nat) :
    Reads (readMethodAttribute pool) offset image.asAttribute.bytes
      (some body) := by
  have content : (readBody pool).run image.body.bytes = .ok body := by
    have read := run_of_reads (body_reads describes 0) []
    rwa [List.append_nil] at read
  refine (short_reads _ _).bind ?_
  refine (lookup_reads (Pool.text_eq_ok.mpr named) _).bindNothing ?_
  refine (number_reads image.fits _).bind ?_
  refine (take_reads _ _).andThen ?_
  rw [if_pos (show ("Code" : Text) = codeAttribute from rfl)]
  exact (lookup_reads content _).map _

/-- Any other attribute of a method is skipped. -/
theorem other_reads
    {image : AttributeImage}
    {name : Text}
    (named : pool.HasText image.name.toNat name)
    (different : name ≠ "Code")
    (offset : Nat) :
    Reads (readMethodAttribute pool) offset image.bytes none := by
  refine (short_reads _ _).bind ?_
  refine (lookup_reads (Pool.text_eq_ok.mpr named) _).bindNothing ?_
  refine (number_reads image.fits _).bind ?_
  refine (take_reads _ _).andThen ?_
  rw [codeAttribute, if_neg different]
  exact Reads.value _ _

/-- The attributes of a method are read back, and only the code gives a body. -/
theorem methodAttributes_read
    {owner : Text}
    {image : MethodImage}
    {method : Method}
    (describes : image.Describes pool owner method) :
    List.Forall₂
      (fun image body =>
        ∀ offset,
          Reads (readMethodAttribute pool) offset
            (AttributeImage.bytes image) body)
      image.attributes
      (image.before.map (fun _ => none) ++
        (method.body.toList.map some ++ image.after.map fun _ => none)) := by
  have others :
      ∀ images : List AttributeImage,
        images ⊆ image.before ++ image.after →
        List.Forall₂
          (fun image body =>
            ∀ offset,
              Reads (readMethodAttribute pool) offset
                (AttributeImage.bytes image) body)
          images (images.map fun _ => none) := by
    intro images within
    rw [List.forall₂_map_right_iff, List.forall₂_same]
    intro other isOther
    obtain ⟨name, named, different⟩ :=
      describes.otherNames other (within isOther)
    exact other_reads named different
  refine List.rel_append (others image.before (by simp)) ?_
  refine List.rel_append ?_ (others image.after (by simp))
  -- The code and the body are there together, or neither of them is.
  have related := describes.body
  have named := describes.codeName
  generalize image.code = code at related named ⊢
  generalize method.body = body at related ⊢
  cases related with
  | none =>
      exact .nil
  | some bodyDescribes =>
      exact .cons (code_reads (named _ rfl) bodyDescribes) .nil

theorem method_reads
    {owner : Text}
    {image : MethodImage}
    {method : Method}
    (describes : image.Describes pool owner method)
    (offset : Nat) :
    Reads (readMethod pool owner) offset image.bytes method := by
  have each := methodAttributes_read describes
  obtain ⟨_, name, descriptor, access, body⟩ := method
  obtain ⟨rfl, hasName, hasDescriptor, rfl, -, -, -⟩ := describes
  have few : image.attributes.length < 0x10000 := by
    have fits := image.fits
    simp only [MethodImage.attributes, List.length_append, List.length_map]
    omega
  have last :
      ((image.before.map (fun _ => none) ++
        (body.toList.map some ++
          image.after.map fun _ => none)).filterMap id).getLast? =
        body := by
    cases body <;> simp
  refine (short_reads _ _).bind ((short_reads _ _).bind ?_)
  refine (lookup_reads (Pool.text_eq_ok.mpr hasName) _).bindNothing ?_
  refine (short_reads _ _).bind ?_
  refine (lookup_reads (Pool.text_eq_ok.mpr hasDescriptor) _).bindNothing ?_
  refine (counted_reads few each _).andThen ?_
  rw [last]
  exact Reads.value _ _

theorem magic_reads
    (offset : Nat) :
    Reads u4 offset [0xCA, 0xFE, 0xBA, 0xBE] magic := by
  have read : Reads u4 offset (Bytes.ofNat 4 magic) magic :=
    number_reads (by decide) offset
  rwa [show Bytes.ofNat 4 magic = [0xCA, 0xFE, 0xBA, 0xBE] by decide]
    at read

theorem read_reads
    {source : Text}
    {image : ClassImage}
    {file : ClassFile}
    (describes : image.Describes source file)
    (offset : Nat) :
    Reads (read source) offset image.bytes file := by
  obtain ⟨name, superName, access, major, minor, pool, methods, _⟩ := file
  obtain ⟨rfl, hasName, hasSuper, rfl, rfl, rfl, describesAll, rfl⟩ :=
    describes
  refine (magic_reads _).bind ?_
  rw [if_neg (not_not_intro rfl)]
  refine (short_reads _ _).bind ((short_reads _ _).bind ?_)
  refine (pool_reads image _).bind ((short_reads _ _).bind ?_)
  refine (short_reads _ _).bind ?_
  refine (lookup_reads (Pool.className_eq_ok.mpr hasName) _).bindNothing ?_
  refine (short_reads _ _).bind ?_
  refine (lookup_reads (optionalClass_eq_ok.mpr hasSuper) _).bindNothing ?_
  refine (counted_map_reads short_reads image.interfaces _).bind ?_
  refine (counted_map_reads field_reads image.fields _).bind ?_
  have each := describesAll.imp fun _ _ describes => method_reads describes
  exact (counted_reads image.methods.property each _).map _

end Members

/--
A class is read back from the bytes of an image that describes it, whatever
follows the bytes.
-/
theorem parse_image
    {source : Text}
    {image : ClassImage}
    {file : ClassFile}
    (describes : image.Describes source file)
    (trailing : Bytes) :
    parse (image.bytes ++ trailing) source = .ok file :=
  run_of_reads (read_reads describes 0) trailing

/-- A class with a long in its pool, a field and a method that catches. -/
def demoImage : ClassImage where
  minor := 0
  major := 52
  constants :=
    [.utf8 [0x41] "A" (by decide) (by decide),
      .classRef 1,
      .long (-5),
      .utf8 [0x43, 0x6F, 0x64, 0x65] "Code" (by decide) (by decide),
      .utf8 [0x66] "f" (by decide) (by decide)]
  access := 0x21
  thisIndex := 2
  superIndex := 0
  interfaces := ⟨[2], by decide⟩
  fields := ⟨[⟨2, 6, 1, ⟨[⟨6, [9, 9], by decide⟩], by decide⟩⟩], by decide⟩
  methods :=
    ⟨[⟨9, 6, 1, [⟨6, [1], by decide⟩],
        some
          ⟨5,
            ⟨1, 2, [0x57, 0xB1], ⟨[⟨0, 2, 1, 2⟩, ⟨0, 1, 1, 0⟩], by decide⟩,
              ⟨[], by decide⟩, by decide⟩,
            by decide⟩,
        [], by decide⟩],
      by decide⟩
  fits := by decide

/-- The class that the image is of. -/
def demoClass : ClassFile where
  name := "A"
  superName := none
  access := 0x21
  major := 52
  minor := 0
  pool :=
    ⟨[none, some (.utf8 "A"), some (.classRef 1), some (.long (-5)), none,
      some (.utf8 "Code"), some (.utf8 "f")]⟩
  methods :=
    [⟨"A", "f", "A", 9,
      some
        ⟨1, 2, [0x57, 0xB1], [⟨0, 2, 1, some "A"⟩, ⟨0, 1, 1, none⟩]⟩⟩]
  source := "A.class"

theorem parse_demoImage :
    demoImage.Describes "A.class" demoClass ∧
      parse (demoImage.bytes ++ [1, 2, 3]) "A.class" = .ok demoClass := by
  have hasClass : demoImage.pool.HasClass 2 "A" :=
    ⟨1, ⟨by decide, rfl⟩, ⟨by decide, rfl⟩⟩
  have describes : demoImage.Describes "A.class" demoClass := by
    refine ⟨by decide, hasClass, rfl, rfl, rfl, rfl, .cons ?_ .nil, rfl⟩
    refine
      ⟨rfl, ⟨by decide, rfl⟩, ⟨by decide, rfl⟩, rfl, .some ?_, ?_, ?_⟩
    · exact
        ⟨rfl, rfl, rfl,
          .cons ⟨rfl, rfl, rfl, hasClass⟩ (.cons ⟨rfl, rfl, rfl, rfl⟩ .nil)⟩
    · intro code isCode
      cases isCode
      exact ⟨by decide, rfl⟩
    · intro other isOther
      obtain rfl := List.mem_singleton.mp isOther
      exact ⟨"f", ⟨by decide, rfl⟩, by decide⟩
  exact ⟨describes, parse_image describes [1, 2, 3]⟩

end ClassFile

end KeyAudit
