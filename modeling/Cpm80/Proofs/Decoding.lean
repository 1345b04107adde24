import Mathlib.Data.List.Forall2
import Mathlib.Tactic.SplitIfs
import Cpm80.Instruction
import Cpm80.Utf8

/-!
Contract: decoding as the taking apart of bytes into characters and parts that are none.

Owns:
- the number that a leading byte and continuation bytes give, by how many there are;
- a character's bytes as those that give its number;
- maximal ill-formed parts: what reading takes where there is no whole character;
- the one way in which bytes are decoded, and text decoded from its own bytes.

The bytes of a character are those of the encoding that the string type has.

Does not own: what decoded text is shown for.
-/

namespace Cpm80.Utf8

/-! ## Bytes of a character -/

/-- The range of the byte behind a leading byte that takes more than one. -/
def secondRange (lead : UInt8) : ByteRange where
  first := if lead = 0xe0 then 0xa0 else if lead = 0xf0 then 0x90 else 0x80
  last := if lead = 0xed then 0x9f else if lead = 0xf4 then 0x8f else 0xbf

/-- Leading bytes by the number of bytes behind them. -/
theorem Leader.ofByte?_eq (byte : UInt8) :
    ofByte? byte =
      if byte.toNat < 0x80 then some ⟨byte.toNat, []⟩
      else if byte.toNat < 0xc2 then none
      else if byte.toNat < 0xe0 then some ⟨byte.toNat - 0xc0, [continuation]⟩
      else if byte.toNat < 0xf0 then
        some ⟨byte.toNat - 0xe0, [secondRange byte, continuation]⟩
      else if byte.toNat < 0xf5 then
        some ⟨byte.toNat - 0xf0, [secondRange byte, continuation, continuation]⟩
      else none := by
  revert byte
  apply Instruction.forall_byte
  decide +kernel

theorem ByteRange.contains_iff (range : ByteRange) (byte : UInt8) :
    range.contains byte = true ↔
      range.first.toNat ≤ byte.toNat ∧ byte.toNat ≤ range.last.toNat := by
  simp [contains, UInt8.le_iff_toNat_le]

theorem contains_continuation (byte : UInt8) :
    continuation.contains byte = true ↔ 0x80 ≤ byte.toNat ∧ byte.toNat < 0xc0 := by
  rw [ByteRange.contains_iff]
  exact and_congr_right fun _ => Nat.lt_succ_iff.symm

theorem contains_secondRange (lead byte : UInt8) :
    (secondRange lead).contains byte = true ↔
      (0x80 ≤ byte.toNat ∧ byte.toNat < 0xc0) ∧
        (lead.toNat = 0xe0 → 0xa0 ≤ byte.toNat) ∧ (lead.toNat = 0xed → byte.toNat < 0xa0) ∧
        (lead.toNat = 0xf0 → 0x90 ≤ byte.toNat) ∧ (lead.toNat = 0xf4 → byte.toNat < 0x90) := by
  have same (code : UInt8) : lead = code ↔ lead.toNat = code.toNat := UInt8.toNat_inj.symm
  rw [ByteRange.contains_iff, secondRange]
  simp only [same, apply_ite UInt8.toNat, UInt8.reduceToNat]
  split_ifs <;> omega

/-- Whether bytes are as many as ranges, each within its own. -/
def Fits (ranges : List ByteRange) (bytes : List UInt8) : Prop :=
  List.Forall₂ (fun range byte => range.contains byte = true) ranges bytes

/-- A number with the parts of continuation bytes behind it. -/
def joined (value : Nat) (bytes : List UInt8) : Nat :=
  bytes.foldl (fun value byte => 64 * value + byte.toNat % 64) value

/-- Whether a leading byte and the bytes behind it give a number. -/
def Spells (value : Nat) (lead : UInt8) (rest : List UInt8) : Prop :=
  ∃ leader, Leader.ofByte? lead = some leader ∧ Fits leader.rest rest ∧
    joined leader.value rest = value

section Lengths

variable {value : Nat} {lead second third fourth : UInt8}

theorem spells_zero : Spells value lead [] ↔ lead.toNat = value ∧ value < 0x80 := by
  unfold Spells
  rw [Leader.ofByte?_eq]
  split_ifs <;> simp [Fits, joined]
  all_goals omega

theorem spells_one :
    Spells value lead [second] ↔
      lead.toNat = 0xc0 + value / 64 ∧ second.toNat = 0x80 + value % 64 ∧
        0x80 ≤ value ∧ value < 0x800 := by
  unfold Spells
  rw [Leader.ofByte?_eq]
  split_ifs <;> simp [Fits, joined, contains_continuation]
  all_goals omega

theorem spells_two :
    Spells value lead [second, third] ↔
      lead.toNat = 0xe0 + value / 4096 ∧ second.toNat = 0x80 + value / 64 % 64 ∧
        third.toNat = 0x80 + value % 64 ∧
        0x800 ≤ value ∧ value < 0x10000 ∧ ¬(0xd800 ≤ value ∧ value < 0xe000) := by
  unfold Spells
  rw [Leader.ofByte?_eq]
  split_ifs <;> simp [Fits, joined, contains_continuation, contains_secondRange]
  all_goals omega

theorem spells_three :
    Spells value lead [second, third, fourth] ↔
      lead.toNat = 0xf0 + value / 262144 ∧ second.toNat = 0x80 + value / 4096 % 64 ∧
        third.toNat = 0x80 + value / 64 % 64 ∧ fourth.toNat = 0x80 + value % 64 ∧
        0x10000 ≤ value ∧ value < 0x110000 := by
  unfold Spells
  rw [Leader.ofByte?_eq]
  split_ifs <;> simp [Fits, joined, contains_continuation, contains_secondRange]
  all_goals omega

theorem not_spells_four {fifth : UInt8} {rest : List UInt8} :
    ¬Spells value lead (second :: third :: fourth :: fifth :: rest) := by
  unfold Spells
  rw [Leader.ofByte?_eq]
  split_ifs <;> simp [Fits]

end Lengths

theorem eq_ofNat_iff {byte : UInt8} {number : Nat} (small : number < 256) :
    UInt8.ofNat number = byte ↔ byte.toNat = number := by
  rw [← UInt8.toNat_inj, UInt8.toNat_ofNat_of_lt' small, eq_comm]

/-- A character is encoded as the bytes that give its number. -/
theorem utf8EncodeChar_eq_iff {character : Char} {lead : UInt8} {rest : List UInt8} :
    String.utf8EncodeChar character = lead :: rest ↔ Spells character.toNat lead rest := by
  have valid : character.val.toNat.isValidChar := character.valid
  show _ ↔ Spells character.val.toNat lead rest
  unfold String.utf8EncodeChar
  generalize character.val.toNat = value at valid
  unfold Nat.isValidChar at valid
  dsimp only
  -- There is a case for each length of the bytes and each size of the number. Where these do
  -- not belong together, neither side holds.
  rcases rest with _ | ⟨second, _ | ⟨third, _ | ⟨fourth, _ | ⟨fifth, rest⟩⟩⟩⟩
  all_goals
    simp only [spells_zero, spells_one, spells_two, spells_three, not_spells_four]
    split_ifs
  all_goals
    simp (disch := omega) only [List.cons.injEq, eq_ofNat_iff, reduceCtorEq, and_true,
      and_false, false_iff]
  all_goals omega

theorem exists_char_of_spells {value : Nat} {lead : UInt8} {rest : List UInt8}
    (spells : Spells value lead rest) : ∃ character : Char, character.toNat = value := by
  have valid : value.isValidChar := by
    unfold Nat.isValidChar
    rcases rest with _ | ⟨second, _ | ⟨third, _ | ⟨fourth, _ | ⟨fifth, rest⟩⟩⟩⟩
    all_goals
      simp only [spells_zero, spells_one, spells_two, spells_three, not_spells_four] at spells
    all_goals omega
  exact ⟨Char.ofNatAux value valid, rfl⟩

theorem exists_eq_cons (character : Char) :
    ∃ lead rest, String.utf8EncodeChar character = lead :: rest :=
  List.exists_cons_of_ne_nil String.utf8EncodeChar_ne_nil

/-- The bytes of characters are the leading bytes with continuation bytes in their ranges. -/
theorem exists_encoded_iff {lead : UInt8} {rest : List UInt8} :
    (∃ character, String.utf8EncodeChar character = lead :: rest) ↔
      ∃ leader, Leader.ofByte? lead = some leader ∧ Fits leader.rest rest := by
  constructor
  · rintro ⟨character, encoded⟩
    obtain ⟨leader, found, fits, -⟩ := utf8EncodeChar_eq_iff.1 encoded
    exact ⟨leader, found, fits⟩
  · rintro ⟨leader, found, fits⟩
    obtain ⟨character, number⟩ := exists_char_of_spells ⟨leader, found, fits, rfl⟩
    exact ⟨character, utf8EncodeChar_eq_iff.2 ⟨leader, found, fits, number.symm⟩⟩

/-! ## Continuation bytes -/

theorem readRest_of_fits {ranges : List ByteRange} {taken : List UInt8} (fits : Fits ranges taken)
    (value : Nat) (left : List UInt8) :
    readRest ranges value (taken ++ left) = (some (joined value taken), left) := by
  induction fits generalizing value with
  | nil => rfl
  | cons inside _ inductionHypothesis =>
    rw [List.cons_append, readRest, if_pos inside, inductionHypothesis]
    rfl

/-- Bytes fit ranges as far as they go, and the byte behind them, if there is one, does not
fit the next range. -/
inductive Breaks : List ByteRange → List UInt8 → List UInt8 → Prop where
  | here {range : ByteRange} {ranges : List ByteRange} {left : List UInt8}
      (outside : ∀ byte ∈ left.head?, range.contains byte = false) :
      Breaks (range :: ranges) [] left
  | behind {range : ByteRange} {ranges : List ByteRange} {byte : UInt8} {taken left : List UInt8}
      (inside : range.contains byte = true) (breaks : Breaks ranges taken left) :
      Breaks (range :: ranges) (byte :: taken) left

namespace Breaks

variable {ranges : List ByteRange} {taken left : List UInt8}

theorem readRest_eq (breaks : Breaks ranges taken left) (value : Nat) :
    readRest ranges value (taken ++ left) = (none, left) := by
  induction breaks generalizing value with
  | @here range ranges left outside =>
    cases left with
    | nil => rfl
    | cons byte left =>
      have other : range.contains byte = false := outside byte rfl
      rw [List.nil_append, readRest, if_neg (by simp [other])]
  | behind inside _ inductionHypothesis =>
    rw [List.cons_append, readRest, if_pos inside, inductionHypothesis]

theorem length_lt (breaks : Breaks ranges taken left) : taken.length < ranges.length := by
  induction breaks with
  | here => exact Nat.succ_pos _
  | behind _ _ inductionHypothesis => exact Nat.succ_lt_succ inductionHypothesis

/-- Bytes that go further fit no ranges that these break. -/
theorem length_le_of_fits (breaks : Breaks ranges taken left) {more whole : List UInt8}
    (here : more <+: taken ++ left) (there : more <+: whole) (fits : Fits ranges whole) :
    more.length ≤ taken.length := by
  induction breaks generalizing more whole with
  | @here range ranges left outside =>
    cases more with
    | nil => exact Nat.le_refl _
    | cons byte more =>
      exfalso
      cases fits with
      | cons inside _ =>
        obtain ⟨rfl, -⟩ := List.cons_prefix_cons.1 there
        obtain ⟨behind, rfl⟩ := here
        simp [outside byte rfl] at inside
  | @behind range ranges byte taken left _ _ inductionHypothesis =>
    cases more with
    | nil => exact Nat.zero_le _
    | cons first more =>
      cases fits with
      | cons _ fits =>
        exact Nat.succ_le_succ (inductionHypothesis (List.cons_prefix_cons.1 here).2
          (List.cons_prefix_cons.1 there).2 fits)

theorem exists_fits (breaks : Breaks ranges taken left)
    (inhabited : ∀ range ∈ ranges, range.contains range.first = true) :
    ∃ more, Fits ranges (taken ++ more) := by
  induction breaks with
  | @here range ranges left _ =>
    refine ⟨(range :: ranges).map ByteRange.first, ?_⟩
    exact List.forall₂_map_right_iff.2 (List.forall₂_same.2 inhabited)
  | behind inside _ inductionHypothesis =>
    obtain ⟨more, fits⟩ := inductionHypothesis fun range member =>
      inhabited range (List.mem_cons_of_mem _ member)
    exact ⟨more, .cons inside fits⟩

end Breaks

theorem exists_fits_or_breaks (ranges : List ByteRange) (bytes : List UInt8) :
    ∃ taken left, bytes = taken ++ left ∧ (Fits ranges taken ∨ Breaks ranges taken left) := by
  induction ranges generalizing bytes with
  | nil => exact ⟨[], bytes, rfl, .inl .nil⟩
  | cons range ranges inductionHypothesis =>
    cases bytes with
    | nil => exact ⟨[], [], rfl, .inr (.here (by simp))⟩
    | cons byte bytes =>
      cases inside : range.contains byte with
      | false => exact ⟨[], byte :: bytes, rfl, .inr (.here (by simpa using inside))⟩
      | true =>
        obtain ⟨taken, left, rfl, fits | breaks⟩ := inductionHypothesis bytes
        · exact ⟨byte :: taken, left, rfl, .inl (.cons inside fits)⟩
        · exact ⟨byte :: taken, left, rfl, .inr (.behind inside breaks)⟩

theorem Leader.inhabited {byte : UInt8} {leader : Leader} (found : ofByte? byte = some leader) :
    ∀ range ∈ leader.rest, range.contains range.first = true := by
  have all : ∀ byte, ∀ leader ∈ ofByte? byte,
      ∀ range ∈ leader.rest, range.contains range.first = true := by
    apply Instruction.forall_byte
    decide +kernel
  exact all byte leader found

/-! ## Parts that are no character -/

/-- Whether bytes are the first of a character's, or all of them. -/
def Begins (bytes : List UInt8) : Prop :=
  ∃ character, bytes <+: String.utf8EncodeChar character

/-- A maximal ill-formed part of bytes that begin with no whole character: the longest one
that begins a character, or a single byte if there is none. -/
structure IllFormed (part left : List UInt8) : Prop where
  nonempty : part ≠ []
  incomplete : ∀ character, ¬String.utf8EncodeChar character <+: part ++ left
  begins : part.length = 1 ∨ Begins part
  longest : ∀ longer, longer <+: part ++ left → Begins longer → longer.length ≤ part.length

theorem begins_cons_iff {lead : UInt8} {more : List UInt8} :
    Begins (lead :: more) ↔
      ∃ leader rest, Leader.ofByte? lead = some leader ∧ Fits leader.rest rest ∧
        more <+: rest := by
  constructor
  · rintro ⟨character, first⟩
    obtain ⟨_, rest, encoded⟩ := exists_eq_cons character
    rw [encoded, List.cons_prefix_cons] at first
    obtain ⟨rfl, first⟩ := first
    obtain ⟨leader, found, fits⟩ := exists_encoded_iff.1 ⟨character, encoded⟩
    exact ⟨leader, rest, found, fits, first⟩
  · rintro ⟨leader, rest, found, fits, first⟩
    obtain ⟨character, encoded⟩ := exists_encoded_iff.2 ⟨leader, found, fits⟩
    exact ⟨character, encoded ▸ List.cons_prefix_cons.2 ⟨rfl, first⟩⟩

theorem exists_of_encoded_prefix {character : Char} {lead : UInt8} {bytes : List UInt8}
    (whole : String.utf8EncodeChar character <+: lead :: bytes) :
    ∃ leader rest, Leader.ofByte? lead = some leader ∧ Fits leader.rest rest ∧
      rest <+: bytes := by
  obtain ⟨_, rest, encoded⟩ := exists_eq_cons character
  rw [encoded, List.cons_prefix_cons] at whole
  obtain ⟨rfl, inside⟩ := whole
  obtain ⟨leader, found, fits⟩ := exists_encoded_iff.1 ⟨character, encoded⟩
  exact ⟨leader, rest, found, fits, inside⟩

namespace IllFormed

variable {lead : UInt8} {leader : Leader} {part taken left : List UInt8}

theorem of_none (unknown : Leader.ofByte? lead = none) (left : List UInt8) :
    IllFormed [lead] left where
  nonempty := List.cons_ne_nil _ _
  begins := .inl rfl
  incomplete character whole := by
    obtain ⟨leader, -, found, -⟩ := exists_of_encoded_prefix whole
    rw [unknown] at found
    contradiction
  longest longer here begins := by
    cases longer with
    | nil => exact Nat.zero_le _
    | cons first more =>
      obtain ⟨rfl, -⟩ := List.cons_prefix_cons.1 here
      obtain ⟨leader, -, found, -⟩ := begins_cons_iff.1 begins
      rw [unknown] at found
      contradiction

theorem of_breaks (found : Leader.ofByte? lead = some leader)
    (breaks : Breaks leader.rest taken left) : IllFormed (lead :: taken) left where
  nonempty := List.cons_ne_nil _ _
  begins := by
    obtain ⟨more, fits⟩ := breaks.exists_fits (Leader.inhabited found)
    exact .inr (begins_cons_iff.2 ⟨leader, taken ++ more, found, fits, List.prefix_append _ _⟩)
  incomplete character whole := by
    obtain ⟨other, rest, foundToo, fits, inside⟩ := exists_of_encoded_prefix whole
    obtain rfl : leader = other := Option.some.inj (found.symm.trans foundToo)
    -- A character has a byte for every range, of which one was left without.
    have atMost := breaks.length_le_of_fits inside List.prefix_rfl fits
    have fewer := breaks.length_lt
    rw [List.Forall₂.length_eq fits] at fewer
    exact absurd atMost (Nat.not_le_of_lt fewer)
  longest longer here begins := by
    cases longer with
    | nil => exact Nat.zero_le _
    | cons first more =>
      obtain ⟨rfl, inside⟩ := List.cons_prefix_cons.1 here
      obtain ⟨other, rest, foundToo, fits, there⟩ := begins_cons_iff.1 begins
      obtain rfl : leader = other := Option.some.inj (found.symm.trans foundToo)
      exact Nat.succ_le_succ (breaks.length_le_of_fits inside there fits)

/-- No part is longer than another of the same bytes. -/
theorem length_le {other otherLeft : List UInt8} (illFormed : IllFormed part left)
    (otherwise : IllFormed other otherLeft) (same : part ++ left = other ++ otherLeft) :
    other.length ≤ part.length := by
  rcases otherwise.begins with single | begins
  · rw [single]
    exact List.length_pos_iff.2 illFormed.nonempty
  · exact illFormed.longest other (same ▸ List.prefix_append _ _) begins

theorem unique {other otherLeft : List UInt8} (illFormed : IllFormed part left)
    (otherwise : IllFormed other otherLeft) (same : part ++ left = other ++ otherLeft) :
    part = other ∧ left = otherLeft :=
  List.append_inj same (Nat.le_antisymm (otherwise.length_le illFormed same.symm)
    (illFormed.length_le otherwise same))

end IllFormed

/-! ## Decoding -/

theorem readCharacter_of_encoded {character : Char} {lead : UInt8} {rest : List UInt8}
    (encoded : String.utf8EncodeChar character = lead :: rest) (left : List UInt8) :
    readCharacter lead (rest ++ left) = (character, left) := by
  obtain ⟨leader, found, fits, number⟩ := utf8EncodeChar_eq_iff.1 encoded
  simp only [readCharacter, found, readRest_of_fits fits, number, Char.ofNat_toNat]

/-- A leading byte and the bytes behind it begin with a character or with a part that is none,
and what is read is that. -/
theorem readCharacter_cases (lead : UInt8) (bytes : List UInt8) :
    (∃ character left, lead :: bytes = String.utf8EncodeChar character ++ left ∧
        readCharacter lead bytes = (character, left)) ∨
      ∃ part left, lead :: bytes = part ++ left ∧ IllFormed part left ∧
        readCharacter lead bytes = (replacement, left) := by
  cases found : Leader.ofByte? lead with
  | none =>
    exact .inr ⟨[lead], bytes, rfl, .of_none found bytes, by simp only [readCharacter, found]⟩
  | some leader =>
    obtain ⟨taken, left, rfl, fits | breaks⟩ := exists_fits_or_breaks leader.rest bytes
    · obtain ⟨character, encoded⟩ := exists_encoded_iff.2 ⟨leader, found, fits⟩
      exact .inl ⟨character, left, by rw [encoded]; rfl, readCharacter_of_encoded encoded left⟩
    · exact .inr ⟨lead :: taken, left, rfl, .of_breaks found breaks,
        by simp only [readCharacter, found, breaks.readRest_eq]⟩

theorem readCharacter_of_illFormed {lead : UInt8} {more left : List UInt8}
    (illFormed : IllFormed (lead :: more) left) :
    readCharacter lead (more ++ left) = (replacement, left) := by
  rcases readCharacter_cases lead (more ++ left) with
    ⟨character, behind, whole, -⟩ | ⟨part, behind, whole, otherwise, read⟩
  · exact absurd ⟨behind, whole.symm⟩ (illFormed.incomplete character)
  · obtain ⟨-, rfl⟩ := illFormed.unique otherwise whole
    exact read

/-- Bytes are decoded as characters by taking from their beginning a character where there is
one, and otherwise a mark for the maximal ill-formed part. -/
inductive Decodes : List UInt8 → List Char → Prop where
  | nil : Decodes [] []
  | character (character : Char) {left : List UInt8} {text : List Char}
      (rest : Decodes left text) :
      Decodes (String.utf8EncodeChar character ++ left) (character :: text)
  | illFormed {part left : List UInt8} {text : List Char} (illFormed : IllFormed part left)
      (rest : Decodes left text) :
      Decodes (part ++ left) (replacement :: text)

theorem characters_append {character : Char} (left : List UInt8) :
    characters (String.utf8EncodeChar character ++ left) = character :: characters left := by
  obtain ⟨lead, rest, encoded⟩ := exists_eq_cons character
  rw [encoded, List.cons_append, characters, readCharacter_of_encoded encoded]

theorem IllFormed.characters_append {part left : List UInt8} (illFormed : IllFormed part left) :
    characters (part ++ left) = replacement :: characters left := by
  obtain ⟨lead, more, rfl⟩ := List.exists_cons_of_ne_nil illFormed.nonempty
  rw [List.cons_append, characters, readCharacter_of_illFormed illFormed]

theorem decodes_characters (bytes : List UInt8) : Decodes bytes (characters bytes) := by
  induction bytes using characters.induct with
  | case1 => rw [characters]; exact .nil
  | case2 lead bytes inductionHypothesis =>
    rw [characters]
    rcases readCharacter_cases lead bytes with
      ⟨character, left, whole, read⟩ | ⟨part, left, whole, illFormed, read⟩
    · rw [read] at inductionHypothesis ⊢
      rw [whole]
      exact .character character inductionHypothesis
    · rw [read] at inductionHypothesis ⊢
      rw [whole]
      exact .illFormed illFormed inductionHypothesis

/-- Bytes are decoded in one way only, which is the one that reading takes. -/
theorem decodes_iff {bytes : List UInt8} {text : List Char} :
    Decodes bytes text ↔ text = characters bytes := by
  constructor
  · intro decodes
    induction decodes with
    | nil => rw [characters]
    | character character _ inductionHypothesis =>
      rw [characters_append, inductionHypothesis]
    | illFormed illFormed _ inductionHypothesis =>
      rw [illFormed.characters_append, inductionHypothesis]
  · rintro rfl
    exact decodes_characters bytes

/-- Text is decoded from its own bytes unchanged. -/
theorem characters_flatMap (text : List Char) :
    characters (text.flatMap String.utf8EncodeChar) = text := by
  induction text with
  | nil => rw [List.flatMap_nil, characters]
  | cons character text inductionHypothesis =>
    rw [List.flatMap_cons, characters_append, inductionHypothesis]

theorem toList_loop_eq (bytes : ByteArray) (index : Nat) (passed : List UInt8) :
    ByteArray.toList.loop bytes index passed =
      passed.reverse ++ bytes.data.toList.drop index := by
  fun_induction ByteArray.toList.loop bytes index passed with
  | case1 index passed inside inductionHypothesis =>
    have listed : index < bytes.data.toList.length := inside
    have byte : bytes.get! index = bytes.data.toList[index] := getElem!_pos bytes.data index inside
    rw [inductionHypothesis, List.drop_eq_getElem_cons listed, List.reverse_cons,
      List.append_assoc, byte]
    rfl
  | case2 index passed outside =>
    rw [List.drop_eq_nil_of_le (Nat.le_of_not_lt outside), List.append_nil]

theorem toList_eq_data (bytes : ByteArray) : bytes.toList = bytes.data.toList :=
  toList_loop_eq bytes 0 []

theorem toList_toUTF8 (text : String) :
    text.toUTF8.toList = text.toList.flatMap String.utf8EncodeChar := by
  have encoded : text.toUTF8 = text.toList.utf8Encode := String.utf8Encode_toList.symm
  rw [encoded, List.utf8Encode, toList_eq_data, List.toList_data_toByteArray]

theorem decode_toUTF8 (text : String) : decode text.toUTF8.toList = text := by
  rw [decode, toList_toUTF8, characters_flatMap, String.ofList_toList]

/-- A character of seven bits that is decoded is one of the bytes. -/
theorem mem_of_mem_characters {bytes : List UInt8} {character : Char}
    (ascii : character.toNat < 0x80) (member : character ∈ characters bytes) :
    UInt8.ofNat character.toNat ∈ bytes := by
  have decodes := decodes_characters bytes
  generalize characters bytes = text at decodes member
  induction decodes with
  | nil => contradiction
  | @character other left text _ inductionHypothesis =>
    rcases List.mem_cons.1 member with rfl | later
    · have byte : (UInt8.ofNat character.toNat).toNat = character.toNat :=
        UInt8.toNat_ofNat_of_lt' (Nat.lt_trans ascii (by decide))
      have alone : String.utf8EncodeChar character = [UInt8.ofNat character.toNat] :=
        utf8EncodeChar_eq_iff.2 (spells_zero.2 ⟨byte, ascii⟩)
      rw [alone]
      exact List.mem_append_left _ List.mem_cons_self
    · exact List.mem_append_right _ (inductionHypothesis later)
  | illFormed _ _ inductionHypothesis =>
    rcases List.mem_cons.1 member with rfl | later
    · exact absurd ascii (by decide)
    · exact List.mem_append_right _ (inductionHypothesis later)

end Cpm80.Utf8
