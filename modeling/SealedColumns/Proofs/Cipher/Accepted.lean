import Mathlib.Data.List.Induction
import SealedColumns.Cipher.Keyed
import SealedColumns.Proofs.Cipher.OneWrittenForm

/-!
What a keyed cipher decrypts. A ciphertext without the white space around it is either
the written form of a nonce and of what some bytes are encrypted to under it, or there is
a fault, and which fault it is shows at which layer the ciphertext stops being such a form.
That holds over any text form of bytes and any authenticated encryption that keep their
laws. Base64 and the Galois cipher do: adding the keystream twice changes nothing, and the
tag is determined by what stands before it, so that a body under a nonce comes from one
plaintext at most.
-/

namespace SealedColumns

namespace Galois

open Rijndael (Block)

variable (cipher : Block → Block) (nonce : List UInt8)

theorem length_keystream (counter count : Nat) :
    (keystream cipher nonce counter count).length = 16 * count := by
  induction count generalizing counter with
  | zero => rfl
  | succ count ih =>
      rw [keystream, List.length_append, Block.length_toBytes, ih]
      omega

theorem add_add {data stream : List UInt8} (covered : data.length ≤ stream.length) :
    List.zipWith (· ^^^ ·) (List.zipWith (· ^^^ ·) data stream) stream = data := by
  induction data generalizing stream with
  | nil => simp
  | cons byte rest ih =>
      cases stream with
      | nil => simp at covered
      | cons mask more =>
          have same : byte ^^^ mask ^^^ mask = byte := by
            rw [UInt8.xor_assoc, UInt8.xor_self, UInt8.xor_zero]
          rw [List.zipWith_cons_cons, List.zipWith_cons_cons, same,
            ih (Nat.le_of_succ_le_succ covered)]

theorem length_addStream (data : List UInt8) :
    (addStream cipher nonce data).length = data.length := by
  rw [addStream, List.length_zipWith, length_keystream]
  omega

theorem addStream_addStream (data : List UInt8) :
    addStream cipher nonce (addStream cipher nonce data) = data := by
  have covered : data.length ≤
      (keystream cipher nonce 2 ((data.length + 15) / 16)).length := by
    rw [length_keystream]
    omega
  have same := length_addStream cipher nonce data
  conv_lhs => rw [addStream]
  rw [same, addStream, add_add covered]

theorem length_tag (ciphertext : List UInt8) : (tag cipher nonce ciphertext).length = 16 :=
  length_bigEndian 16 _

theorem decrypt?_encrypt (plaintext : List UInt8) :
    decrypt? cipher nonce (encrypt cipher nonce plaintext) = some plaintext := by
  have size : (encrypt cipher nonce plaintext).length - 16 =
      (addStream cipher nonce plaintext).length := by
    rw [encrypt, List.length_append, length_tag, Nat.add_sub_cancel]
  have enough : ¬ (encrypt cipher nonce plaintext).length < 16 := by
    rw [encrypt, List.length_append, length_tag]
    omega
  rw [decrypt?, if_neg enough, size, encrypt, List.take_left, List.drop_left, if_pos rfl,
    addStream_addStream]

theorem eq_encrypt_of_decrypt? {body plaintext : List UInt8}
    (authentic : decrypt? cipher nonce body = some plaintext) :
    body = encrypt cipher nonce plaintext := by
  unfold decrypt? at authentic
  split at authentic
  · cases authentic
  · dsimp only at authentic
    split at authentic
    · next tagged =>
      obtain rfl := Option.some.inj authentic
      rw [encrypt, addStream_addStream, ← tagged, List.take_append_drop]
    · cases authentic

theorem decrypt?_eq_some_iff (body plaintext : List UInt8) :
    decrypt? cipher nonce body = some plaintext ↔ body = encrypt cipher nonce plaintext :=
  ⟨eq_encrypt_of_decrypt? cipher nonce, fun same => same ▸ decrypt?_encrypt cipher nonce plaintext⟩

theorem bigEndian_ofBigEndian (data : List UInt8) :
    bigEndian data.length (ofBigEndian data) = data := by
  induction data using List.reverseRecOn with
  | nil => rfl
  | append_singleton front byte ih =>
      have number : ofBigEndian (front ++ [byte]) = ofBigEndian front * 256 + byte.toNat :=
        List.foldl_concat ..
      have := byte.toNat_lt
      have high : (ofBigEndian front * 256 + byte.toNat) / 256 = ofBigEndian front := by omega
      have low : (ofBigEndian front * 256 + byte.toNat).toUInt8 = byte := by
        apply UInt8.toNat_inj.mp
        rw [Nat.toUInt8, UInt8.toNat_ofNat']
        omega
      rw [List.length_append, List.length_singleton, number, bigEndian, high, low, ih]

end Galois

theorem Nonce.exists_draw (nonce : Nonce) : ∃ draw, Nonce.ofDraw draw = nonce := by
  obtain ⟨bytes, size⟩ := nonce
  refine ⟨Galois.ofBigEndian bytes, ?_⟩
  have same := Galois.bigEndian_ofBigEndian bytes
  rw [size] at same
  simp only [Nonce.ofDraw, same]

theorem Text.decode_eq_ok_iff {input : List UInt8} {text : String} :
    decode input = .ok text ↔ input = bytes text := by
  rw [← decode?_eq_some_iff, decode]
  split
  · next found => simp [found]
  · next found => simp [found]

/-! The two parts of the frame. -/

/-- Every byte sequence has one text form, without white space around it, and nothing else
    can be read. -/
structure Codec.Lawful (codec : Codec) : Prop where
  reads : ∀ text data, codec.decode text = .ok data ↔ text = codec.encode data
  bare : ∀ data, Text.trim (codec.encode data) = codec.encode data

/-- A body opens to a plaintext under a nonce exactly if the plaintext is encrypted to it. -/
structure Authenticated.Lawful (aead : Authenticated) : Prop where
  opens : ∀ (nonce : Nonce) (body plaintext : List UInt8),
    aead.decrypt? nonce.bytes body = some plaintext ↔ body = aead.encrypt nonce.bytes plaintext

theorem Base64.lawful_codec : codec.Lawful where
  reads _ _ := decode_bytes_eq_ok_iff
  bare := trim_encodeText

theorem Key.lawful_authenticated (key : Key) : key.authenticated.Lawful where
  opens nonce := Galois.decrypt?_eq_some_iff key.blockCipher nonce.bytes

namespace Framed

variable (codec : Codec) (aead : Authenticated)

/-- The written form of a nonce and of what stands behind it. -/
def written (nonce : Nonce) (behind : List UInt8) : String := codec.encode (nonce.bytes ++ behind)

def openBehind (nonce behind : List UInt8) : Except CipherFault String :=
  match aead.decrypt? nonce behind with
  | none => .error (.failed .unauthentic)
  | some plaintext => (Text.decode plaintext).mapError fun fault =>
      .malformed (.plaintextNotText fault)

theorem openBytes_eq (data : List UInt8) :
    openBytes aead data =
      if data.length < 12 then .error (.malformed .tooShort)
      else openBehind aead (data.take 12) (data.drop 12) := by
  unfold openBytes openBehind
  cases aead.decrypt? (data.take 12) (data.drop 12) with
  | none => rfl
  | some plaintext =>
      dsimp only
      cases Text.decode plaintext <;> rfl

/-- Both sides of a cut, unless the cut is out of range. -/
def cut? (data : List UInt8) (place : Nat) : Option (List UInt8 × List UInt8) :=
  if place ≤ data.length then some (data.take place, data.drop place) else none

/-- The decryption that gives nothing where it would cut out of range. -/
def openCutting (ciphertext : String) : Option (Except CipherFault String) :=
  match codec.decode (Text.trim ciphertext) with
  | .error fault => some (.error (.malformed (.notBase64 fault)))
  | .ok data =>
      if data.length < 12 then some (.error (.malformed .tooShort))
      else (cut? data 12).map fun sides => openBehind aead sides.1 sides.2

theorem openCutting_eq (ciphertext : String) :
    openCutting codec aead ciphertext = some (openText codec aead ciphertext) := by
  unfold openCutting openText
  cases codec.decode (Text.trim ciphertext) with
  | error fault => rfl
  | ok data =>
      dsimp only
      rw [openBytes_eq]
      split
      · rfl
      · next long => rw [cut?, if_pos (Nat.le_of_not_lt long), Option.map_some]

/-! What a ciphertext can be. -/

/-- What a text is, and what comes of decrypting it. -/
inductive Reading (text : String) : Except CipherFault String → Prop where
  | notBase64 (fault : Base64.Fault) (unwritten : ∀ data, text ≠ codec.encode data) :
      Reading text (.error (.malformed (.notBase64 fault)))
  | tooShort (data : List UInt8) (form : text = codec.encode data) (short : data.length < 12) :
      Reading text (.error (.malformed .tooShort))
  | unauthentic (nonce : Nonce) (behind : List UInt8) (form : text = written codec nonce behind)
      (foreign : ∀ plaintext, behind ≠ aead.encrypt nonce.bytes plaintext) :
      Reading text (.error (.failed .unauthentic))
  | notText (nonce : Nonce) (plaintext : List UInt8)
      (form : text = written codec nonce (aead.encrypt nonce.bytes plaintext))
      (fault : Text.Utf8Fault) (wild : ∀ other, plaintext ≠ Text.bytes other) :
      Reading text (.error (.malformed (.plaintextNotText fault)))
  | plain (nonce : Nonce) (plaintext : String) (form : text = sealUnder codec aead nonce plaintext) :
      Reading text (.ok plaintext)

section Lawful
variable {codec aead} (lawful : codec.Lawful) (authentic : aead.Lawful)
include lawful

theorem openText_eq {ciphertext : String} {data : List UInt8}
    (form : Text.trim ciphertext = codec.encode data) :
    openText codec aead ciphertext = openBytes aead data := by
  rw [openText, (lawful.reads _ _).mpr form]

theorem openText_short {ciphertext : String} {data : List UInt8}
    (form : Text.trim ciphertext = codec.encode data) (short : data.length < 12) :
    openText codec aead ciphertext = .error (.malformed .tooShort) := by
  rw [openText_eq lawful form, openBytes_eq, if_pos short]

theorem openText_written {ciphertext : String} {nonce : Nonce} {behind : List UInt8}
    (form : Text.trim ciphertext = written codec nonce behind) :
    openText codec aead ciphertext = openBehind aead nonce.bytes behind := by
  have long : ¬ (nonce.bytes ++ behind).length < 12 := by
    rw [List.length_append, nonce.size]
    omega
  rw [openText_eq lawful form, openBytes_eq, if_neg long, List.take_left' nonce.size,
    List.drop_left' nonce.size]

include authentic

theorem openText_foreign {ciphertext : String} {nonce : Nonce} {behind : List UInt8}
    (form : Text.trim ciphertext = written codec nonce behind)
    (foreign : ∀ plaintext, behind ≠ aead.encrypt nonce.bytes plaintext) :
    openText codec aead ciphertext = .error (.failed .unauthentic) := by
  have refused : aead.decrypt? nonce.bytes behind = none := by
    apply Option.eq_none_iff_forall_ne_some.mpr
    intro plaintext opened
    exact foreign plaintext ((authentic.opens nonce behind plaintext).mp opened)
  rw [openText_written lawful form, openBehind, refused]

theorem openText_body {ciphertext : String} {nonce : Nonce} {plaintext : List UInt8}
    (form : Text.trim ciphertext = written codec nonce (aead.encrypt nonce.bytes plaintext)) :
    openText codec aead ciphertext =
      (Text.decode plaintext).mapError fun fault => .malformed (.plaintextNotText fault) := by
  rw [openText_written lawful form, openBehind, (authentic.opens nonce _ plaintext).mpr rfl]

theorem reading_openText (ciphertext : String) :
    Reading codec aead (Text.trim ciphertext) (openText codec aead ciphertext) := by
  cases read : codec.decode (Text.trim ciphertext) with
  | error fault =>
      rw [openText, read]
      refine .notBase64 fault fun data form => ?_
      rw [(lawful.reads _ _).mpr form] at read
      cases read
  | ok data =>
      have form := (lawful.reads _ _).mp read
      by_cases short : data.length < 12
      · rw [openText_short lawful form short]
        exact .tooShort data form short
      · let nonce : Nonce := ⟨data.take 12, by rw [List.length_take]; omega⟩
        replace form : Text.trim ciphertext = written codec nonce (data.drop 12) := by
          rw [form, written, List.take_append_drop]
        by_cases foreign : ∀ plaintext, data.drop 12 ≠ aead.encrypt nonce.bytes plaintext
        · rw [openText_foreign lawful authentic form foreign]
          exact .unauthentic nonce _ form foreign
        · obtain ⟨plaintext, same⟩ := not_forall_not.mp foreign
          rw [same] at form
          rw [openText_body lawful authentic form]
          cases decoded : Text.decode plaintext with
          | error fault =>
              refine .notText nonce plaintext form fault fun other sameBytes => ?_
              rw [Text.decode_eq_ok_iff.mpr sameBytes] at decoded
              cases decoded
          | ok text =>
              obtain rfl := Text.decode_eq_ok_iff.mp decoded
              exact .plain nonce text form

theorem openText_eq_ok_iff {ciphertext plaintext : String} :
    openText codec aead ciphertext = .ok plaintext ↔
      ∃ nonce, Text.trim ciphertext = sealUnder codec aead nonce plaintext := by
  constructor
  · intro gives
    have reading := reading_openText lawful authentic ciphertext
    rw [gives] at reading
    cases reading with
    | plain nonce _ form => exact ⟨nonce, form⟩
  · rintro ⟨nonce, form⟩
    rw [openText_body lawful authentic form, Text.decode_eq_ok_iff.mpr rfl]
    rfl

theorem openText_sealUnder (nonce : Nonce) (plaintext : String) :
    openText codec aead (sealUnder codec aead nonce plaintext) = .ok plaintext :=
  (openText_eq_ok_iff lawful authentic).mpr ⟨nonce, lawful.bare _⟩

theorem openText_eq_malformed_iff {ciphertext : String} :
    (∃ fault, openText codec aead ciphertext = .error (.malformed fault)) ↔
      (∀ data, Text.trim ciphertext ≠ codec.encode data)
      ∨ (∃ data, Text.trim ciphertext = codec.encode data ∧ data.length < 12)
      ∨ ∃ nonce plaintext,
          Text.trim ciphertext = written codec nonce (aead.encrypt nonce.bytes plaintext)
          ∧ ∀ text, plaintext ≠ Text.bytes text := by
  constructor
  · rintro ⟨fault, gives⟩
    have reading := reading_openText lawful authentic ciphertext
    rw [gives] at reading
    cases reading with
    | notBase64 _ unwritten => exact Or.inl unwritten
    | tooShort data form short => exact Or.inr (Or.inl ⟨data, form, short⟩)
    | notText nonce plaintext form _ wild => exact Or.inr (Or.inr ⟨nonce, plaintext, form, wild⟩)
  · rintro (unwritten | ⟨data, form, short⟩ | ⟨nonce, plaintext, form, wild⟩)
    · cases read : codec.decode (Text.trim ciphertext) with
      | error fault => exact ⟨.notBase64 fault, by rw [openText, read]⟩
      | ok data => exact (unwritten data ((lawful.reads _ _).mp read)).elim
    · exact ⟨.tooShort, openText_short lawful form short⟩
    · rw [openText_body lawful authentic form]
      cases text : Text.decode plaintext with
      | error fault => exact ⟨.plaintextNotText fault, rfl⟩
      | ok other => exact (wild other (Text.decode_eq_ok_iff.mp text)).elim

theorem openText_eq_failed_iff {ciphertext : String} :
    (∃ fault, openText codec aead ciphertext = .error (.failed fault)) ↔
      ∃ nonce behind, Text.trim ciphertext = written codec nonce behind
        ∧ ∀ plaintext, behind ≠ aead.encrypt nonce.bytes plaintext := by
  constructor
  · rintro ⟨fault, gives⟩
    have reading := reading_openText lawful authentic ciphertext
    rw [gives] at reading
    cases reading with
    | unauthentic nonce behind form foreign => exact ⟨nonce, behind, form, foreign⟩
  · rintro ⟨nonce, behind, form, foreign⟩
    exact ⟨.unauthentic, openText_foreign lawful authentic form foreign⟩

/-- Over any lawful text form and any lawful encryption, decryption accepts, under white space,
    what encryption gives under some nonce and nothing else. A ciphertext that is refused is
    malformed or inauthentic, and no cut is out of range. -/
theorem opens_what_is_sealed (ciphertext : String) :
    (∀ plaintext, openText codec aead ciphertext = .ok plaintext ↔
        ∃ nonce, Text.trim ciphertext = sealUnder codec aead nonce plaintext)
      ∧ (∀ nonce plaintext,
        openText codec aead (sealUnder codec aead nonce plaintext) = .ok plaintext)
      ∧ ((∃ fault, openText codec aead ciphertext = .error (.malformed fault)) ↔
        (∀ data, Text.trim ciphertext ≠ codec.encode data)
        ∨ (∃ data, Text.trim ciphertext = codec.encode data ∧ data.length < 12)
        ∨ ∃ nonce plaintext,
            Text.trim ciphertext = written codec nonce (aead.encrypt nonce.bytes plaintext)
            ∧ ∀ text, plaintext ≠ Text.bytes text)
      ∧ ((∃ fault, openText codec aead ciphertext = .error (.failed fault)) ↔
        ∃ nonce behind, Text.trim ciphertext = written codec nonce behind
          ∧ ∀ plaintext, behind ≠ aead.encrypt nonce.bytes plaintext)
      ∧ openCutting codec aead ciphertext = some (openText codec aead ciphertext) :=
  ⟨fun _ => openText_eq_ok_iff lawful authentic, openText_sealUnder lawful authentic,
    openText_eq_malformed_iff lawful authentic, openText_eq_failed_iff lawful authentic,
    openCutting_eq codec aead ciphertext⟩

end Lawful

end Framed

namespace Keyed

variable (key : Key)

/-- The bytes that stand behind a nonce for what is encrypted under it. -/
def body (nonce : Nonce) : List UInt8 → List UInt8 := key.authenticated.encrypt nonce.bytes

/-- The written form of a nonce and of what stands behind it. -/
def written : Nonce → List UInt8 → String := Framed.written Base64.codec

def openCutting : String → Option (Except CipherFault String) :=
  Framed.openCutting Base64.codec key.authenticated

theorem encrypt_eq_ok_iff {plaintext ciphertext : String} :
    (∃ draw, (cipher key).encrypt draw plaintext = .ok ciphertext) ↔
      ∃ nonce, ciphertext = sealUnder key nonce plaintext := by
  constructor
  · rintro ⟨draw, gives⟩
    exact ⟨.ofDraw draw, (Except.ok.inj gives).symm⟩
  · rintro ⟨nonce, form⟩
    obtain ⟨draw, drawn⟩ := nonce.exists_draw
    rw [← drawn] at form
    exact ⟨draw, congrArg Except.ok form.symm⟩

/-- Decryption accepts, under white space, what encryption gives under some nonce and nothing
    else. A ciphertext that is refused is malformed or inauthentic, and no cut is out of
    range. -/
theorem decrypt_accepts_encrypted (key : Key) (ciphertext : String) :
    (∀ plaintext, (cipher key).decrypt ciphertext = .ok plaintext ↔
        ∃ draw, (cipher key).encrypt draw plaintext = .ok (Text.trim ciphertext))
      ∧ (∀ plaintext other, (∃ draw, (cipher key).encrypt draw plaintext = .ok other) ↔
        ∃ nonce, other = sealUnder key nonce plaintext)
      ∧ (∀ nonce plaintext, (cipher key).decrypt (sealUnder key nonce plaintext) = .ok plaintext)
      ∧ ((∃ fault, (cipher key).decrypt ciphertext = .error (.malformed fault)) ↔
        (∀ data, Text.trim ciphertext ≠ Base64.encodeText data)
        ∨ (∃ data, Text.trim ciphertext = Base64.encodeText data ∧ data.length < 12)
        ∨ ∃ nonce plaintext, Text.trim ciphertext = written nonce (body key nonce plaintext)
            ∧ ∀ text, plaintext ≠ Text.bytes text)
      ∧ ((∃ fault, (cipher key).decrypt ciphertext = .error (.failed fault)) ↔
        ∃ nonce behind, Text.trim ciphertext = written nonce behind
          ∧ ∀ plaintext, behind ≠ body key nonce plaintext)
      ∧ openCutting key ciphertext = some ((cipher key).decrypt ciphertext) := by
  obtain ⟨opens, returns, malformed, failed, cuts⟩ :=
    Framed.opens_what_is_sealed Base64.lawful_codec key.lawful_authenticated ciphertext
  have decrypts : (cipher key).decrypt = Framed.openText Base64.codec key.authenticated := rfl
  rw [decrypts]
  refine ⟨fun plaintext => ?_, fun _ _ => encrypt_eq_ok_iff key, returns, malformed, failed, cuts⟩
  rw [encrypt_eq_ok_iff]
  exact opens plaintext

end Keyed

end SealedColumns
