import OpenVibeHost.Rebuffering
import Mathlib.Data.List.TakeDrop

/-! Encryption of off-host backups, `lib/backup-crypto.js`: AES-256-GCM in chunks, as two
streams. What comes back from encrypting and decrypting does not depend on how either stream
is cut into pieces. -/
namespace OpenVibeHost.BackupCrypto
open Rebuffering

abbrev Bytes := List UInt8

/-- What `node:crypto` computes: HKDF-SHA256 of a file key, the first eight bytes of the HMAC that
names a key, and AES-256-GCM, which appends a tag of 16 bytes. -/
structure NodeCrypto where
  fileKey : Bytes → Bytes → Bytes
  keyId : Bytes → Bytes
  gcmSeal : Bytes → Bytes → Bytes → Bytes → Bytes
  gcmOpen : Bytes → Bytes → Bytes → Bytes → Option Bytes
  length_keyId : ∀ master, (keyId master).length = 8
  length_gcmSeal : ∀ key nonce aad plain, (gcmSeal key nonce aad plain).length = plain.length + 16

def magic : Bytes := [79, 86, 66, 75, 65, 69, 83, 49]

def headerLen : Nat := 52

def tagLen : Nat := 16

def defaultChunk : Nat := 1024 * 1024

def maxChunk : Nat := 64 * 1024 * 1024

/-- `index++`: a number counts exactly up to 2 ^ 53, where adding one changes nothing. -/
def increment (index : Nat) : Nat := if index < 2 ^ 53 then index + 1 else index

def nonce (index : Nat) (final : Bool) : Bytes :=
  List.replicate 3 0 ++ bigEndian 8 index ++ [if final then 1 else 0]

def header (crypto : NodeCrypto) (master : Bytes) (chunkSize : Nat) (salt : Bytes) : Bytes :=
  magic ++ bigEndian 4 chunkSize ++ salt ++ crypto.keyId master

/-- Ciphertext size for a plaintext of `plainBytes`. -/
def encryptedSize (plainBytes chunkSize : Nat) : Nat :=
  let chunks := max 1 ((plainBytes + chunkSize - 1) / chunkSize)
  headerLen + plainBytes + chunks * tagLen

section
variable (crypto : NodeCrypto)

def sealChunk (key aad : Bytes) (index : Nat) (final : Bool) (plain : Bytes) : Bytes :=
  crypto.gcmSeal key (nonce index final) aad plain

def openChunk (key aad : Bytes) (index : Nat) (final : Bool) (sealed' : Bytes) : Except String Bytes :=
  match crypto.gcmOpen key (nonce index final) aad sealed' with
  | some plain => .ok plain
  | none => .error ("chunk " ++ toString index ++
      " failed authentication: the file was altered, truncated or encrypted with another key")

/-! ### Encrypting -/

structure Encryptor where
  buf : Bytes := []
  index : Nat := 0
  started : Bool := false

/-- A turn of the loop of `transform`. -/
def sealTurn (key aad : Bytes) (index : Nat) (chunk : Bytes) : Id (Nat × Bytes) :=
  pure (increment index, sealChunk crypto key aad index false chunk)

/-- `transform`: what it pushes, and the state it leaves. -/
def Encryptor.transform (chunkSize : Nat) (key aad : Bytes) (s : Encryptor) (chunk : Bytes) :
    Encryptor × Bytes :=
  let (index, rest, out) := drain chunkSize (sealTurn crypto key aad) s.index (s.buf ++ chunk)
  ({ buf := rest, index, started := true }, (if s.started then [] else aad) ++ out)

/-- `flush`. -/
def Encryptor.flush (key aad : Bytes) (s : Encryptor) : Bytes :=
  (if s.started then [] else aad) ++ sealChunk crypto key aad s.index true s.buf

/-- What the pieces push, and what is pushed at the end. -/
def Encryptor.stream (chunkSize : Nat) (key aad : Bytes) (s : Encryptor) : List Bytes → Bytes
  | [] => s.flush crypto key aad
  | piece :: pieces =>
    let (s', out) := s.transform crypto chunkSize key aad piece
    out ++ Encryptor.stream chunkSize key aad s' pieces

/-- The pieces through `createEncryptStream`. -/
def encrypt (master : Bytes) (chunkSize : Nat) (salt : Bytes) (pieces : List Bytes) : Except String Bytes :=
  if master.length ≠ 32 then .error "the master key must be 32 bytes"
  else if ¬ (1 ≤ chunkSize ∧ chunkSize ≤ maxChunk) then .error "bad chunk size"
  else
    let aad := header crypto master chunkSize salt
    .ok (Encryptor.stream crypto chunkSize (crypto.fileKey master salt) aad {} pieces)

/-! ### Decrypting -/

/-- `toString('hex')`. -/
def hexText (bytes : Bytes) : String :=
  String.ofList (bytes.flatMap fun byte => [Nat.digitChar (byte.toNat / 16), Nat.digitChar (byte.toNat % 16)])

/-- What the header says. -/
structure Opened where
  aad : Bytes
  key : Bytes
  sealedLen : Nat

structure Decryptor where
  buf : Bytes := []
  opened : Option Opened := none
  index : Nat := 0

def readHeader (master buf : Bytes) : Except String Opened :=
  let h := buf.take headerLen
  if h.take 8 ≠ magic then .error "not an OpenVibe backup file (bad magic)"
  else
    let chunkSize := ofBigEndian ((h.drop 8).take 4)
    if ¬ (1 ≤ chunkSize ∧ chunkSize ≤ maxChunk) then .error "bad chunk size in header"
    else if (h.drop 44).take 8 ≠ crypto.keyId master then
      .error ("encrypted with another key (key id " ++ hexText ((h.drop 44).take 8) ++
        ", this host's key is " ++ hexText (crypto.keyId master) ++ ")")
    else .ok { aad := h, key := crypto.fileKey master ((h.drop 12).take 32), sealedLen := chunkSize + tagLen }

/-- A turn of the loop of `transform`. -/
def openTurn (key aad : Bytes) (index : Nat) (chunk : Bytes) : Except String (Nat × Bytes) := do
  return (increment index, ← openChunk crypto key aad index false chunk)

/-- The loop of `transform`, once the header is read. -/
def Decryptor.drain (o : Opened) (index : Nat) (buf : Bytes) : Except String (Decryptor × Bytes) := do
  let (index, rest, out) ← Rebuffering.drain o.sealedLen (openTurn crypto o.key o.aad) index buf
  return ({ buf := rest, opened := some o, index }, out)

/-- `transform`. -/
def Decryptor.transform (master : Bytes) (s : Decryptor) (chunk : Bytes) : Except String (Decryptor × Bytes) :=
  let buf := s.buf ++ chunk
  match s.opened with
  | some o => Decryptor.drain crypto o s.index buf
  | none =>
    if buf.length < headerLen then .ok ({ s with buf }, [])
    else do Decryptor.drain crypto (← readHeader crypto master buf) s.index (buf.drop headerLen)

/-- `flush`. -/
def Decryptor.flush (s : Decryptor) : Except String Bytes :=
  match s.opened with
  | none => .error "truncated: no complete header"
  | some o =>
    if s.buf.length < tagLen then .error "truncated: the final chunk is missing"
    else openChunk crypto o.key o.aad s.index true s.buf

/-- What the pieces push, and what is pushed at the end, unless one of them fails. -/
def Decryptor.stream (master : Bytes) (s : Decryptor) : List Bytes → Except String Bytes
  | [] => s.flush crypto
  | piece :: pieces => do
    let (s', out) ← s.transform crypto master piece
    return out ++ (← Decryptor.stream master s' pieces)

/-- The pieces through `createDecryptStream`. -/
def decrypt (master : Bytes) (pieces : List Bytes) : Except String Bytes :=
  if master.length ≠ 32 then .error "the master key must be 32 bytes"
  else Decryptor.stream crypto master {} pieces

end

/-! ### The streams as a whole -/

section
variable {crypto : NodeCrypto} {chunkSize : Nat} {key aad master : Bytes}

/-- The last chunk, after what the loop left and gave. -/
def sealLast (crypto : NodeCrypto) (key aad : Bytes) (left : Nat × Bytes × Bytes) : Bytes :=
  left.2.2 ++ sealChunk crypto key aad left.1 true left.2.1

/-- The chunks of a body, the last one flagged. -/
def sealBody (crypto : NodeCrypto) (chunkSize : Nat) (key aad : Bytes) (index : Nat) (plain : Bytes) : Bytes :=
  sealLast crypto key aad (drain (m := Id) chunkSize (sealTurn crypto key aad) index plain)

/-- Opens the chunks of a body, the last one flagged. -/
def openBody (crypto : NodeCrypto) (o : Opened) (index : Nat) (body : Bytes) : Except String Bytes := do
  let (last, rest, out) ← Rebuffering.drain o.sealedLen (openTurn crypto o.key o.aad) index body
  return out ++ (← Decryptor.flush crypto { buf := rest, opened := some o, index := last })

theorem stream_started (s : Encryptor) (pieces : List Bytes) :
    Encryptor.stream crypto chunkSize key aad s pieces = (if s.started then [] else aad) ++
      sealLast crypto key aad (feed (m := Id) chunkSize (sealTurn crypto key aad) s.index s.buf pieces) := by
  induction pieces generalizing s with
  | nil => rfl
  | cons piece pieces ih =>
    have fed (left : Nat × Bytes × Bytes) :
        drain (m := Id) chunkSize (sealTurn crypto key aad) s.index (s.buf ++ piece) = left →
        feed (m := Id) chunkSize (sealTurn crypto key aad) s.index s.buf (piece :: pieces) =
          ((feed (m := Id) chunkSize (sealTurn crypto key aad) left.1 left.2.1 pieces).1,
            (feed (m := Id) chunkSize (sealTurn crypto key aad) left.1 left.2.1 pieces).2.1,
            left.2.2 ++ (feed (m := Id) chunkSize (sealTurn crypto key aad) left.1 left.2.1 pieces).2.2) := by
      rintro rfl
      rfl
    have turned (left : Nat × Bytes × Bytes) :
        drain (m := Id) chunkSize (sealTurn crypto key aad) s.index (s.buf ++ piece) = left →
        s.transform crypto chunkSize key aad piece =
          ({ buf := left.2.1, index := left.1, started := true }, (if s.started then [] else aad) ++ left.2.2) := by
      rintro rfl
      rfl
    rw [Encryptor.stream, turned _ rfl, fed _ rfl]
    dsimp only
    rw [ih]
    simp [sealLast, List.append_assoc]

theorem stream_seals (pos : 0 < chunkSize) (pieces : List Bytes) :
    Encryptor.stream crypto chunkSize key aad {} pieces =
      aad ++ sealBody crypto chunkSize key aad 0 pieces.flatten := by
  rw [stream_started, feed_eq_drain pos]
  rfl

theorem stream_opened (o : Opened) (index : Nat) (buf : Bytes) (pieces : List Bytes) :
    Decryptor.stream crypto master { buf, opened := some o, index } pieces = (do
      let (last, rest, out) ← feed o.sealedLen (openTurn crypto o.key o.aad) index buf pieces
      return out ++ (← Decryptor.flush crypto { buf := rest, opened := some o, index := last })) := by
  induction pieces generalizing index buf with
  | nil => simp [Decryptor.stream, feed]
  | cons piece pieces ih =>
    simp [Decryptor.stream, Decryptor.transform, Decryptor.drain, feed, ih, ← List.append_assoc]

theorem readHeader_append (buf more : Bytes) (whole : headerLen ≤ buf.length) :
    readHeader crypto master (buf ++ more) = readHeader crypto master buf := by
  unfold readHeader
  rw [List.take_append_of_le_length whole]

theorem sealedLen_pos {buf : Bytes} {o : Opened} (read : readHeader crypto master buf = .ok o) :
    0 < o.sealedLen := by
  unfold readHeader at read
  dsimp only at read
  split at read
  · exact nomatch read
  · split at read
    · exact nomatch read
    · split at read
      · exact nomatch read
      · obtain rfl := Except.ok.inj read
        exact Nat.add_pos_right _ (by decide)

private theorem ok_bind {α β : Type} (a : α) (f : α → Except String β) : (Except.ok a >>= f) = f a := rfl

/-- Decrypting what the pieces hold. -/
def openBytes (crypto : NodeCrypto) (master bytes : Bytes) : Except String Bytes :=
  if bytes.length < headerLen then .error "truncated: no complete header"
  else do openBody crypto (← readHeader crypto master bytes) 0 (bytes.drop headerLen)

theorem stream_opens (buf : Bytes) (short : buf.length < headerLen) (pieces : List Bytes) :
    Decryptor.stream crypto master { buf } pieces = openBytes crypto master (buf ++ pieces.flatten) := by
  induction pieces generalizing buf with
  | nil => simp [Decryptor.stream, Decryptor.flush, openBytes, short]
  | cons piece pieces ih =>
    by_cases enough : (buf ++ piece).length < headerLen
    · have waits : Decryptor.transform crypto master { buf } piece = .ok ({ buf := buf ++ piece }, []) := by
        simp only [Decryptor.transform, if_pos enough]
      rw [Decryptor.stream, waits, List.flatten_cons, ← List.append_assoc, ← ih _ enough, ok_bind]
      simp
    · have whole : headerLen ≤ (buf ++ piece).length := not_lt.mp enough
      have long : ¬ (buf ++ (piece :: pieces).flatten).length < headerLen := by
        simp only [List.flatten_cons, List.length_append] at whole ⊢
        omega
      rw [Decryptor.stream, openBytes, if_neg long, List.flatten_cons, ← List.append_assoc,
        readHeader_append _ _ whole, List.drop_append_of_le_length whole]
      simp only [Decryptor.transform, if_neg enough]
      cases read : readHeader crypto master (buf ++ piece) with
      | error e => rfl
      | ok o =>
        have fed := @drain_feed UInt8 UInt8 Nat (Except String) _ o.sealedLen
          (openTurn crypto o.key o.aad) _ (sealedLen_pos read) 0 ((buf ++ piece).drop headerLen) pieces
        rw [ok_bind, ok_bind, openBody, ← fed]
        simp [Decryptor.drain, stream_opened, ← List.append_assoc]

/-! ### There and back -/

theorem drain_seal_long {index : Nat} {plain : Bytes} (long : chunkSize < plain.length) (pos : 0 < chunkSize) :
    drain (m := Id) chunkSize (sealTurn crypto key aad) index plain =
      let left := drain (m := Id) chunkSize (sealTurn crypto key aad) (increment index) (plain.drop chunkSize)
      (left.1, left.2.1, sealChunk crypto key aad index false (plain.take chunkSize) ++ left.2.2) :=
  drain_long long pos

theorem drain_seal_short {index : Nat} {plain : Bytes} (short : plain.length ≤ chunkSize) :
    drain (m := Id) chunkSize (sealTurn crypto key aad) index plain = (index, plain, []) :=
  drain_short short

/-- A body of more than one chunk. -/
theorem sealBody_long {index : Nat} {plain : Bytes} (long : chunkSize < plain.length) (pos : 0 < chunkSize) :
    sealBody crypto chunkSize key aad index plain =
      sealChunk crypto key aad index false (plain.take chunkSize) ++
        sealBody crypto chunkSize key aad (increment index) (plain.drop chunkSize) := by
  rw [sealBody, drain_seal_long long pos]
  simp [sealLast, sealBody]

/-- A body of one chunk. -/
theorem sealBody_short {index : Nat} {plain : Bytes} (short : plain.length ≤ chunkSize) :
    sealBody crypto chunkSize key aad index plain = sealChunk crypto key aad index true plain := by
  rw [sealBody, drain_seal_short short]
  simp [sealLast]

theorem length_sealChunk (index : Nat) (final : Bool) (plain : Bytes) :
    (sealChunk crypto key aad index final plain).length = plain.length + tagLen :=
  crypto.length_gcmSeal _ _ _ _

theorem length_sealBody (pos : 0 < chunkSize) (index : Nat) (plain : Bytes) :
    (sealBody crypto chunkSize key aad index plain).length =
      plain.length + max 1 ((plain.length + chunkSize - 1) / chunkSize) * tagLen := by
  induction bound : plain.length using Nat.strong_induction_on generalizing index plain with
  | _ n ih =>
    subst bound
    by_cases long : chunkSize < plain.length
    · have fewer : (plain.drop chunkSize).length < plain.length := by simp; omega
      have rest := ih _ fewer (increment index) (plain.drop chunkSize) rfl
      have taken : (plain.take chunkSize).length = chunkSize := by simp; omega
      have left : (plain.drop chunkSize).length = plain.length - chunkSize := by simp
      have whole : plain.length + chunkSize - 1 = (plain.length - chunkSize + chunkSize - 1) + chunkSize := by omega
      have some : 1 ≤ (plain.length - chunkSize + chunkSize - 1) / chunkSize :=
        (Nat.one_le_div_iff pos).mpr (by omega)
      rw [sealBody_long long pos, List.length_append, length_sealChunk, rest, taken, left, whole,
        Nat.add_div_right _ pos, max_eq_right some, max_eq_right (by omega), Nat.succ_mul]
      omega
    · have one : (plain.length + chunkSize - 1) / chunkSize ≤ 1 := by
        rw [Nat.div_le_iff_le_mul_add_pred pos]
        omega
      rw [sealBody_short (by omega), length_sealChunk, max_eq_left one, one_mul]

/-- `open` undoes `seal` under the same key, nonce and associated data. -/
def Opens (crypto : NodeCrypto) : Prop :=
  ∀ key nonce aad plain, crypto.gcmOpen key nonce aad (crypto.gcmSeal key nonce aad plain) = some plain

theorem openChunk_eq_ok {index : Nat} {final : Bool} {bytes plain : Bytes} :
    openChunk crypto key aad index final bytes = .ok plain ↔
      crypto.gcmOpen key (nonce index final) aad bytes = some plain := by
  unfold openChunk
  cases crypto.gcmOpen key (nonce index final) aad bytes <;> simp

theorem openChunk_sealChunk (opens : Opens crypto) (index : Nat) (final : Bool) (plain : Bytes) :
    openChunk crypto key aad index final (sealChunk crypto key aad index final plain) = .ok plain :=
  openChunk_eq_ok.mpr (opens key (nonce index final) aad plain)

/-- A body of one chunk is opened as the last one. -/
theorem openBody_short {o : Opened} {index : Nat} {body : Bytes} (short : body.length ≤ o.sealedLen)
    (enough : tagLen ≤ body.length) :
    openBody crypto o index body = openChunk crypto o.key o.aad index true body := by
  rw [openBody, drain_short short]
  simp [Decryptor.flush, not_lt.mpr enough]

/-- A body of more than one chunk is opened chunk by chunk. -/
theorem openBody_long {o : Opened} {index : Nat} {body : Bytes} (long : o.sealedLen < body.length)
    (pos : 0 < o.sealedLen) :
    openBody crypto o index body = (do
      let plain ← openChunk crypto o.key o.aad index false (body.take o.sealedLen)
      return plain ++ (← openBody crypto o (increment index) (body.drop o.sealedLen))) := by
  rw [openBody, drain_long long pos]
  simp [openTurn, openBody, ← List.append_assoc]

/-- The chunks of a body: the index, whether it is the last, and what is sealed. -/
def chunks (chunkSize index : Nat) (plain : Bytes) : List (Nat × Bool × Bytes) :=
  if chunkSize < plain.length ∧ 0 < chunkSize then
    (index, false, plain.take chunkSize) :: chunks chunkSize (increment index) (plain.drop chunkSize)
  else [(index, true, plain)]
termination_by plain.length
decreasing_by simp; omega

theorem chunks_short {index : Nat} {plain : Bytes} (short : plain.length ≤ chunkSize) :
    chunks chunkSize index plain = [(index, true, plain)] := by
  rw [chunks, if_neg (by omega)]

theorem chunks_long {index : Nat} {plain : Bytes} (long : chunkSize < plain.length) (pos : 0 < chunkSize) :
    chunks chunkSize index plain =
      (index, false, plain.take chunkSize) :: chunks chunkSize (increment index) (plain.drop chunkSize) := by
  rw [chunks, if_pos ⟨long, pos⟩]

/-- A body is its chunks, sealed one after another. -/
theorem sealBody_chunks (pos : 0 < chunkSize) (index : Nat) (plain : Bytes) :
    sealBody crypto chunkSize key aad index plain =
      (chunks chunkSize index plain).flatMap fun c => sealChunk crypto key aad c.1 c.2.1 c.2.2 := by
  induction bound : plain.length using Nat.strong_induction_on generalizing index plain with
  | _ n ih =>
    subst bound
    by_cases long : chunkSize < plain.length
    · have fewer : (plain.drop chunkSize).length < plain.length := by simp; omega
      have rest := ih _ fewer (increment index) (plain.drop chunkSize) rfl
      rw [sealBody_long long pos, chunks_long long pos, List.flatMap_cons, rest]
    · have short : plain.length ≤ chunkSize := by omega
      rw [sealBody_short short, chunks_short short]
      simp

/-- A body whose chunks open is opened. -/
theorem openBody_sealBody (pos : 0 < chunkSize) (index : Nat) (plain : Bytes)
    (opens : ∀ c ∈ chunks chunkSize index plain,
      openChunk crypto key aad c.1 c.2.1 (sealChunk crypto key aad c.1 c.2.1 c.2.2) = .ok c.2.2) :
    openBody crypto { aad, key, sealedLen := chunkSize + tagLen } index
      (sealBody crypto chunkSize key aad index plain) = .ok plain := by
  induction bound : plain.length using Nat.strong_induction_on generalizing index plain with
  | _ n ih =>
    subst bound
    by_cases long : chunkSize < plain.length
    · rw [chunks_long long pos, List.forall_mem_cons] at opens
      obtain ⟨first, others⟩ := opens
      have fewer : (plain.drop chunkSize).length < plain.length := by simp; omega
      have rest := ih _ fewer (increment index) (plain.drop chunkSize) others rfl
      have size : (sealChunk crypto key aad index false (plain.take chunkSize)).length = chunkSize + tagLen := by
        rw [length_sealChunk, List.length_take, min_eq_left long.le]
      have follows : 0 < (sealBody crypto chunkSize key aad (increment index) (plain.drop chunkSize)).length := by
        rw [length_sealBody pos]
        have some : 0 < (plain.drop chunkSize).length := by simp; omega
        exact Nat.lt_of_lt_of_le some (Nat.le_add_right _ _)
      rw [sealBody_long long pos, openBody_long (by simp [size]; omega) (by simp; omega)]
      simp [size, first, rest, ok_bind]
    · have short : plain.length ≤ chunkSize := by omega
      rw [chunks_short short] at opens
      have last := opens _ (List.mem_singleton_self _)
      rw [sealBody_short short, openBody_short (by simpa [length_sealChunk] using short) (by simp [length_sealChunk])]
      exact last

theorem length_header {salt : Bytes} (sized : salt.length = 32) :
    (header crypto master chunkSize salt).length = headerLen := by
  simp [header, magic, headerLen, sized, crypto.length_keyId]

/-- The fields of a header, where a reader finds them. -/
theorem header_fields {salt : Bytes} (sized : salt.length = 32) :
    (header crypto master chunkSize salt).take 8 = magic ∧
      ((header crypto master chunkSize salt).drop 8).take 4 = bigEndian 4 chunkSize ∧
        ((header crypto master chunkSize salt).drop 12).take 32 = salt ∧
          ((header crypto master chunkSize salt).drop 44).take 8 = crypto.keyId master := by
  have id := crypto.length_keyId master
  have eight : magic.length = 8 := rfl
  simp only [header, List.append_assoc]
  refine ⟨?_, ?_, ?_, ?_⟩ <;>
    simp [List.drop_append, eight, sized, id, List.drop_eq_nil_of_le, List.take_of_length_le]

theorem readHeader_header {salt : Bytes} (sized : salt.length = 32) (some : 1 ≤ chunkSize)
    (most : chunkSize ≤ maxChunk) (body : Bytes) :
    readHeader crypto master (header crypto master chunkSize salt ++ body) =
      .ok { aad := header crypto master chunkSize salt, key := crypto.fileKey master salt,
            sealedLen := chunkSize + tagLen } := by
  obtain ⟨first, second, third, fourth⟩ := @header_fields crypto chunkSize master salt sized
  have whole : (header crypto master chunkSize salt ++ body).take headerLen = header crypto master chunkSize salt := by
    rw [← length_header sized]
    exact List.take_left
  have small : chunkSize < 256 ^ 4 := lt_of_le_of_lt most (by decide)
  have size : ofBigEndian (bigEndian 4 chunkSize) = chunkSize := by
    rw [ofBigEndian_bigEndian, Nat.mod_eq_of_lt small]
  simp only [readHeader, whole, first, second, third, fourth, size, ne_eq, not_true_eq_false, if_false]
  rw [if_neg (not_not.mpr ⟨some, most⟩)]

/-- An encrypted file. -/
def encrypted (crypto : NodeCrypto) (master : Bytes) (chunkSize : Nat) (salt plain : Bytes) : Bytes :=
  header crypto master chunkSize salt ++
    sealBody crypto chunkSize (crypto.fileKey master salt) (header crypto master chunkSize salt) 0 plain

theorem encrypt_eq {salt : Bytes} (key' : master.length = 32) (some : 1 ≤ chunkSize)
    (most : chunkSize ≤ maxChunk) (pieces : List Bytes) :
    encrypt crypto master chunkSize salt pieces = .ok (encrypted crypto master chunkSize salt pieces.flatten) := by
  rw [encrypt, if_neg (not_not.mpr key'), if_neg (not_not.mpr ⟨some, most⟩)]
  exact congrArg Except.ok (stream_seals some pieces)

theorem decrypt_eq (key' : master.length = 32) (pieces : List Bytes) :
    decrypt crypto master pieces = openBytes crypto master pieces.flatten := by
  rw [decrypt, if_neg (not_not.mpr key'), stream_opens [] (by decide), List.nil_append]

/-- What follows a header that was written is opened with what the header says. -/
theorem openBytes_header {salt : Bytes} (sized : salt.length = 32) (some : 1 ≤ chunkSize)
    (most : chunkSize ≤ maxChunk) (body : Bytes) :
    openBytes crypto master (header crypto master chunkSize salt ++ body) =
      openBody crypto { aad := header crypto master chunkSize salt, key := crypto.fileKey master salt,
                        sealedLen := chunkSize + tagLen } 0 body := by
  have long : ¬ (header crypto master chunkSize salt ++ body).length < headerLen := by
    rw [List.length_append, length_header sized]
    omega
  have rest : (header crypto master chunkSize salt ++ body).drop headerLen = body := by
    rw [← @length_header crypto chunkSize master salt sized]
    exact List.drop_left
  rw [openBytes, if_neg long, rest, readHeader_header sized some most, ok_bind]

theorem decrypt_encrypted (opens : Opens crypto) {salt : Bytes} (key' : master.length = 32)
    (sized : salt.length = 32) (some : 1 ≤ chunkSize) (most : chunkSize ≤ maxChunk) (plain : Bytes)
    {cut : List Bytes} (whole : cut.flatten = encrypted crypto master chunkSize salt plain) :
    decrypt crypto master cut = .ok plain := by
  rw [decrypt_eq key', whole, encrypted, openBytes_header sized some most,
    openBody_sealBody some _ _ fun c _ => openChunk_sealChunk opens c.1 c.2.1 c.2.2]

/-- What is encrypted comes back, however either stream is cut into pieces, and the size of the
encrypted file is known beforehand. -/
theorem decrypt_encrypt (opens : Opens crypto) {salt : Bytes} (key' : master.length = 32)
    (sized : salt.length = 32) (some : 1 ≤ chunkSize) (most : chunkSize ≤ maxChunk) (pieces : List Bytes) :
    ∃ bytes, encrypt crypto master chunkSize salt pieces = .ok bytes ∧
      bytes.length = encryptedSize pieces.flatten.length chunkSize ∧
        ∀ cut : List Bytes, cut.flatten = bytes → decrypt crypto master cut = .ok pieces.flatten := by
  refine ⟨_, encrypt_eq key' some most pieces, ?_, fun cut whole => ?_⟩
  · rw [encrypted, List.length_append, length_header sized, length_sealBody some, encryptedSize, Nat.add_assoc]
  · exact decrypt_encrypted opens key' sized some most _ whole

end

/-! ### A small file

The key, the key id, the keystream and the tags of AES-256-GCM for one file of three chunks. -/

/-- XOR with as much of a keystream as there is. -/
def mask : Bytes → Bytes → Bytes
  | [], text => text
  | _, [] => []
  | k :: stream, b :: text => (b ^^^ k) :: mask stream text

theorem length_mask (stream text : Bytes) : (mask stream text).length = text.length := by
  induction text generalizing stream with
  | nil => cases stream <;> rfl
  | cons b text ih => cases stream <;> simp [mask, ih]

theorem mask_mask (stream text : Bytes) : mask stream (mask stream text) = text := by
  induction text generalizing stream with
  | nil => cases stream <;> rfl
  | cons b text ih => cases stream <;> simp [mask, ih, UInt8.xor_assoc]

/-- A mask with a tag of sixteen bytes after it comes off again. -/
theorem unseal_mask (stream tag plain : Bytes) (size : tag.length = 16) :
    (if (mask stream plain ++ tag).drop ((mask stream plain ++ tag).length - 16) = tag then
      some (mask stream ((mask stream plain ++ tag).take ((mask stream plain ++ tag).length - 16)))
    else none) = some plain := by
  have cut : (mask stream plain ++ tag).length - 16 = (mask stream plain).length := by
    rw [List.length_append, size, Nat.add_sub_cancel]
  rw [cut, List.drop_left, List.take_left, if_pos rfl, mask_mask]

/-- The keystream and the tag of each chunk of the file. -/
def smallFile : List (Bytes × Bytes × Bytes) :=
  [(nonce 0 false, [58, 96], [231, 92, 91, 245, 93, 51, 154, 83, 112, 173, 231, 199, 128, 71, 91, 54]),
    (nonce 1 false, [173, 5], [180, 143, 117, 35, 187, 50, 182, 132, 106, 64, 60, 230, 148, 192, 138, 120]),
    (nonce 2 true, [246], [250, 88, 211, 178, 244, 117, 109, 53, 44, 209, 41, 226, 16, 16, 26, 145])]

/-- The keystream and the tag under a nonce; of another file, none and zeros. -/
def smallGcm (nonce : Bytes) : Bytes × Bytes :=
  ((smallFile.find? (·.1 = nonce)).map (·.2)).getD ([], List.replicate 16 0)

def smallCrypto : NodeCrypto where
  fileKey _ _ := [73, 12, 80, 41, 18, 87, 235, 15, 91, 202, 27, 194, 27, 141, 60, 231, 96, 175, 124, 104, 193, 39,
    181, 14, 59, 194, 200, 123, 193, 134, 172, 212]
  keyId _ := [95, 14, 160, 215, 55, 175, 206, 172]
  gcmSeal _ nonce _ plain := mask (smallGcm nonce).1 plain ++ (smallGcm nonce).2.takeD 16 0
  gcmOpen _ nonce _ sealed' :=
    if sealed'.drop (sealed'.length - 16) = (smallGcm nonce).2.takeD 16 0 then
      some (mask (smallGcm nonce).1 (sealed'.take (sealed'.length - 16)))
    else none
  length_keyId _ := rfl
  length_gcmSeal key nonce aad plain := List.length_append.trans (congrArg₂ (· + ·) (length_mask _ _) rfl)

theorem smallCrypto_opens : Opens smallCrypto := by
  intro key nonce aad plain
  unfold smallCrypto
  dsimp only
  generalize smallGcm nonce = known
  exact unseal_mask known.1 _ plain (List.takeD_length 16 _ _)

/-- Five bytes in chunks of two, fed in three pieces and read back in two. -/
theorem five_bytes_back : ∃ bytes, encrypt smallCrypto (List.replicate 32 1) 2 (List.replicate 32 2)
      [[10], [11, 12, 13], [14]] = .ok bytes ∧ bytes.length = 52 + 5 + 3 * 16 ∧
    decrypt smallCrypto (List.replicate 32 1) [bytes.take 60, bytes.drop 60] = .ok [10, 11, 12, 13, 14] := by
  obtain ⟨bytes, made, size, back⟩ := @decrypt_encrypt smallCrypto 2 (List.replicate 32 1) smallCrypto_opens
    (List.replicate 32 2) (by simp) (by simp) (by decide) (by decide) [[10], [11, 12, 13], [14]]
  exact ⟨bytes, made, size, back _ (by simp)⟩

end OpenVibeHost.BackupCrypto
