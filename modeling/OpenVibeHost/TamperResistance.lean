import Mathlib.Data.List.Nodup
import OpenVibeHost.BackupCrypto

/-! What the decryptor completes on when the cipher is ideal: the files that were encrypted and
nothing else, as long as no file has more chunks than a number counts. -/
namespace OpenVibeHost.BackupCrypto
open Rebuffering

/-- A file that is encrypted, with a chunk size and a salt that the encryptor takes. -/
structure File where
  chunkSize : Nat
  salt : Bytes
  plain : Bytes
  some : 1 ≤ chunkSize
  most : chunkSize ≤ maxChunk
  sized : salt.length = 32

def File.chunks (f : File) : List (Nat × Bool × Bytes) := BackupCrypto.chunks f.chunkSize 0 f.plain

/-- The nonces of a file, chunk by chunk. -/
def File.nonces (f : File) : List Bytes := f.chunks.map fun c => nonce c.1 c.2.1

/-- A chunk as it is sealed. -/
structure Sealing where
  key : Bytes
  nonce : Bytes
  aad : Bytes
  plain : Bytes
  deriving DecidableEq

section
variable (crypto : NodeCrypto) (master : Bytes)

def File.key (f : File) : Bytes := crypto.fileKey master f.salt

def File.aad (f : File) : Bytes := header crypto master f.chunkSize f.salt

def File.sealings (f : File) : List Sealing :=
  f.chunks.map fun c => ⟨f.key crypto master, nonce c.1 c.2.1, f.aad crypto master, c.2.2⟩

/-- An ideal cipher opens what was sealed for one of the files, under the same key, nonce and
associated data, and nothing else. -/
def Ideal (files : List File) : Prop :=
  ∀ key nonce aad plain bytes, crypto.gcmOpen key nonce aad bytes = some plain ↔
    ⟨key, nonce, aad, plain⟩ ∈ files.flatMap (File.sealings crypto master) ∧
      bytes = crypto.gcmSeal key nonce aad plain

/-- What the decryptor completes on is one of the files, byte for byte, and no nonce is used for two
chunks of a file. -/
structure Resists (files : List File) : Prop where
  only : ∀ pieces plain, decrypt crypto master pieces = .ok plain →
    ∃ f ∈ files, encrypt crypto master f.chunkSize f.salt [f.plain] = .ok pieces.flatten
  once : ∀ f ∈ files, f.nonces.Nodup

end

section
variable {crypto : NodeCrypto} {chunkSize : Nat} {key aad master : Bytes}

/-! ### The chunks of a file -/

theorem le_increment (index : Nat) : index ≤ increment index := by
  unfold increment
  split <;> omega

theorem increment_le {index : Nat} (counts : index ≤ 2 ^ 53) : increment index ≤ 2 ^ 53 := by
  unfold increment
  split <;> omega

theorem increment_lt {index : Nat} (counts : index < 2 ^ 53) : increment index = index + 1 := if_pos counts

/-- The first chunk, and those after it when it is not the last. -/
theorem chunks_cases (pos : 0 < chunkSize) (index : Nat) (plain : Bytes) :
    (plain.length ≤ chunkSize ∧ chunks chunkSize index plain = [(index, true, plain)]) ∨
      (chunkSize < plain.length ∧ chunks chunkSize index plain =
        (index, false, plain.take chunkSize) :: chunks chunkSize (increment index) (plain.drop chunkSize)) := by
  by_cases long : chunkSize < plain.length
  · exact .inr ⟨long, chunks_long long pos⟩
  · exact .inl ⟨not_lt.mp long, chunks_short (not_lt.mp long)⟩

theorem chunks_index (pos : 0 < chunkSize) {index : Nat} (counts : index ≤ 2 ^ 53) (plain : Bytes)
    (c : Nat × Bool × Bytes) (mem : c ∈ chunks chunkSize index plain) : index ≤ c.1 ∧ c.1 ≤ 2 ^ 53 := by
  induction bound : plain.length using Nat.strong_induction_on generalizing index plain with
  | _ n ih =>
    subst bound
    obtain ⟨-, all⟩ | ⟨long, all⟩ := chunks_cases pos index plain
    · rw [all, List.mem_singleton] at mem
      subst mem
      exact ⟨le_rfl, counts⟩
    · rw [all, List.mem_cons] at mem
      rcases mem with rfl | later
      · exact ⟨le_rfl, counts⟩
      · have fewer : (plain.drop chunkSize).length < plain.length := by simp; omega
        obtain ⟨low, high⟩ := ih _ fewer (increment_le counts) _ later rfl
        exact ⟨(le_increment index).trans low, high⟩

/-- Up to 2 ^ 53 a nonce is that of one index and one flag. -/
theorem nonce_inj {index index' : Nat} {final final' : Bool} (counts : index ≤ 2 ^ 53)
    (counts' : index' ≤ 2 ^ 53) (same : nonce index final = nonce index' final') :
    index = index' ∧ final = final' := by
  simp only [nonce, List.append_assoc] at same
  have rest := List.append_cancel_left same
  obtain ⟨number, flag⟩ := List.append_inj rest (by simp)
  have small : ∀ {n : Nat}, n ≤ 2 ^ 53 → n < 256 ^ 8 := fun le => lt_of_le_of_lt le (by decide)
  refine ⟨bigEndian_inj (small counts) (small counts') number, ?_⟩
  cases final <;> cases final' <;> simp_all

/-- Where more than a chunk is left of a file that fits, the index still counts. -/
theorem room_left {index : Nat} {plain : Bytes} (long : chunkSize < plain.length)
    (fits : index * chunkSize + plain.length ≤ (2 ^ 53 + 1) * chunkSize) : index < 2 ^ 53 := by
  have exceeds : (index + 1) * chunkSize < (2 ^ 53 + 1) * chunkSize := by rw [Nat.succ_mul]; omega
  have := Nat.lt_of_mul_lt_mul_right exceeds
  omega

/-- The chunks before the index stops: no two of them have the same nonce. -/
theorem chunks_nodup (pos : 0 < chunkSize) {index : Nat} (counts : index ≤ 2 ^ 53) (plain : Bytes)
    (fits : index * chunkSize + plain.length ≤ (2 ^ 53 + 1) * chunkSize) :
    ((chunks chunkSize index plain).map fun c => nonce c.1 c.2.1).Nodup := by
  induction bound : plain.length using Nat.strong_induction_on generalizing index plain with
  | _ n ih =>
    subst bound
    obtain ⟨-, all⟩ | ⟨long, all⟩ := chunks_cases pos index plain
    · simp [all]
    · have room : index < 2 ^ 53 := room_left long fits
      have fewer : (plain.drop chunkSize).length < plain.length := by simp; omega
      have left : (plain.drop chunkSize).length = plain.length - chunkSize := by simp
      have rest := @ih _ fewer (index + 1) room (plain.drop chunkSize) (by rw [left, Nat.succ_mul]; omega) rfl
      rw [all, increment_lt room, List.map_cons, List.nodup_cons]
      refine ⟨fun again => ?_, rest⟩
      obtain ⟨c, mem, same⟩ := List.mem_map.mp again
      obtain ⟨low, high⟩ := chunks_index pos room _ c mem
      obtain ⟨repeated, -⟩ := nonce_inj high counts same
      omega

/-! ### What is opened was sealed -/

private theorem of_bind_ok {α β : Type} {x : Except String α} {f : α → Except String β} {b : β}
    (ran : (x >>= f) = .ok b) : ∃ a, x = .ok a ∧ f a = .ok b := by
  cases x with
  | error e => exact nomatch ran
  | ok a => exact ⟨a, rfl, ran⟩

/-- A body that opens, where what opens from `index` on is one of the chunks from there, is the body
that was sealed. -/
theorem openBody_only (pos : 0 < chunkSize) {index : Nat} (counts : index ≤ 2 ^ 53) (rest : Bytes)
    (fits : index * chunkSize + rest.length ≤ (2 ^ 53 + 1) * chunkSize)
    (only : ∀ k final bytes plain, index ≤ k → k ≤ 2 ^ 53 → openChunk crypto key aad k final bytes = .ok plain →
      (k, final, plain) ∈ chunks chunkSize index rest ∧ bytes = sealChunk crypto key aad k final plain)
    {body plain : Bytes}
    (opened : openBody crypto { aad, key, sealedLen := chunkSize + tagLen } index body = .ok plain) :
    body = sealBody crypto chunkSize key aad index rest := by
  induction bound : rest.length using Nat.strong_induction_on generalizing index rest body plain with
  | _ n ih =>
    subst bound
    by_cases more : chunkSize + tagLen < body.length
    · -- A chunk that more follows opens without the flag, so it is not the last of the file.
      rw [openBody_long more (by simp; omega)] at opened
      obtain ⟨first, isFirst, opened⟩ := of_bind_ok opened
      obtain ⟨others, isOthers, -⟩ := of_bind_ok opened
      obtain ⟨mem, same⟩ := only index false _ _ le_rfl counts isFirst
      obtain ⟨-, all⟩ | ⟨long, all⟩ := chunks_cases pos index rest
      · simp [all] at mem
      · have room : index < 2 ^ 53 := room_left long fits
        have left : (rest.drop chunkSize).length = rest.length - chunkSize := by simp
        rw [increment_lt room] at all isOthers
        have tail := @ih _ (by omega) (index + 1) room (rest.drop chunkSize) (by rw [left, Nat.succ_mul]; omega)
          (fun k final bytes plain low high isPlain => by
            obtain ⟨mem, same⟩ := only k final bytes plain (by omega) high isPlain
            rw [all, List.mem_cons] at mem
            rcases mem with head | later
            · obtain rfl : k = index := congrArg (·.1) head
              omega
            · exact ⟨later, same⟩) _ _ isOthers rfl
        rw [all, List.mem_cons] at mem
        rcases mem with head | later
        · obtain rfl : first = rest.take chunkSize := congrArg (·.2.2) head
          rw [sealBody_long long pos, increment_lt room, ← tail, ← same, List.take_append_drop]
        · have := (chunks_index pos room _ _ later).1
          simp at this
    · -- What is left opens with the flag, so it is the last of the file.
      by_cases enough : tagLen ≤ body.length
      · rw [openBody_short (not_lt.mp more) enough] at opened
        obtain ⟨mem, same⟩ := only index true _ _ le_rfl counts opened
        obtain ⟨short, all⟩ | ⟨long, all⟩ := chunks_cases pos index rest
        · rw [all, List.mem_singleton] at mem
          obtain rfl : plain = rest := congrArg (·.2.2) mem
          rw [same, sealBody_short short]
        · have room : index < 2 ^ 53 := room_left long fits
          rw [all, List.mem_cons, increment_lt room] at mem
          rcases mem with head | later
          · exact nomatch congrArg (·.2.1) head
          · have := (chunks_index pos room _ _ later).1
            simp at this
      · rw [openBody, drain_short (not_lt.mp more)] at opened
        simp [Decryptor.flush, not_le.mp enough] at opened

theorem openBody_opens {o : Opened} {index : Nat} {body plain : Bytes} (pos : 0 < o.sealedLen)
    (opened : openBody crypto o index body = .ok plain) :
    ∃ final bytes first, openChunk crypto o.key o.aad index final bytes = .ok first := by
  by_cases more : o.sealedLen < body.length
  · rw [openBody_long more pos] at opened
    obtain ⟨first, isFirst, -⟩ := of_bind_ok opened
    exact ⟨false, _, first, isFirst⟩
  · rw [openBody, drain_short (not_lt.mp more)] at opened
    by_cases enough : body.length < tagLen
    · simp [Decryptor.flush, enough] at opened
    · exact ⟨true, body, plain, by simpa [Decryptor.flush, enough] using opened⟩

theorem aad_of_read {buf : Bytes} {o : Opened} (read : readHeader crypto master buf = .ok o) :
    buf.take headerLen = o.aad := by
  unfold readHeader at read
  dsimp only at read
  split at read
  · exact nomatch read
  · split at read
    · exact nomatch read
    · split at read
      · exact nomatch read
      · obtain rfl := Except.ok.inj read
        rfl

variable {files : List File}

/-- A header is that of one salt. -/
theorem salt_of_header {f g : File} (same : f.aad crypto master = g.aad crypto master) : f.salt = g.salt := by
  obtain ⟨-, -, salt, -⟩ := @header_fields crypto f.chunkSize master f.salt f.sized
  obtain ⟨-, -, salt', -⟩ := @header_fields crypto g.chunkSize master g.salt g.sized
  have read : (f.aad crypto master).drop 12 = (g.aad crypto master).drop 12 := congrArg _ same
  rw [← salt, ← salt']
  exact congrArg _ read

theorem eq_of_header (distinct : (files.map File.salt).Nodup) {f g : File} (hf : f ∈ files) (hg : g ∈ files)
    (same : f.aad crypto master = g.aad crypto master) : f = g :=
  List.inj_on_of_nodup_map distinct hf hg (salt_of_header same)

/-- What opens under an ideal cipher is a chunk of one of the files. -/
theorem opened_of_file (ideal : Ideal crypto master files) {index : Nat} {final : Bool} {bytes plain : Bytes}
    (opened : openChunk crypto key aad index final bytes = .ok plain) :
    ∃ f ∈ files, aad = f.aad crypto master ∧ (∃ c ∈ f.chunks, nonce index final = nonce c.1 c.2.1 ∧ plain = c.2.2) ∧
      bytes = sealChunk crypto key aad index final plain := by
  obtain ⟨mem, same⟩ := (ideal _ _ _ _ _).mp (openChunk_eq_ok.mp opened)
  obtain ⟨f, hf, mem⟩ := List.mem_flatMap.mp mem
  obtain ⟨c, hc, isSealing⟩ := List.mem_map.mp mem
  simp only [Sealing.mk.injEq] at isSealing
  obtain ⟨-, isNonce, isAad, isPlain⟩ := isSealing
  exact ⟨f, hf, isAad.symm, ⟨c, hc, isNonce.symm, isPlain.symm⟩, same⟩

/-- An encrypted file. -/
def File.encrypted (crypto : NodeCrypto) (master : Bytes) (f : File) : Bytes :=
  f.aad crypto master ++
    sealBody crypto f.chunkSize (f.key crypto master) (f.aad crypto master) 0 f.plain

theorem File.encrypt_eq (key' : master.length = 32) (f : File) :
    encrypt crypto master f.chunkSize f.salt [f.plain] = .ok (f.encrypted crypto master) := by
  rw [BackupCrypto.encrypt_eq key' f.some f.most]
  simp only [List.flatten_cons, List.flatten_nil, List.append_nil]
  rfl

theorem File.openBytes_eq (f : File) (body : Bytes) :
    openBytes crypto master (f.aad crypto master ++ body) =
      openBody crypto { aad := f.aad crypto master, key := f.key crypto master,
                        sealedLen := f.chunkSize + tagLen } 0 body :=
  openBytes_header f.sized f.some f.most body

/-- No chunk of a file that fits is repeated or missing in what the decryptor completes on. -/
theorem decrypted_was_encrypted (distinct : (files.map File.salt).Nodup)
    (ideal : Ideal crypto master files) (fits : ∀ f ∈ files, f.plain.length ≤ (2 ^ 53 + 1) * f.chunkSize)
    {bytes plain : Bytes} (opened : openBytes crypto master bytes = .ok plain) :
    ∃ f ∈ files, bytes = f.encrypted crypto master := by
  have read := opened
  unfold openBytes at read
  split at read
  · exact nomatch read
  · obtain ⟨o, isHeader, isBody⟩ := of_bind_ok read
    obtain ⟨final, first, start, isFirst⟩ := openBody_opens (sealedLen_pos isHeader) isBody
    obtain ⟨f, hf, isAad, -, -⟩ := opened_of_file ideal isFirst
    have whole : bytes = f.aad crypto master ++ bytes.drop headerLen := by
      rw [← isAad, ← aad_of_read isHeader, List.take_append_drop]
    rw [whole, f.openBytes_eq] at opened
    have body := openBody_only f.some (Nat.zero_le _) f.plain (by simpa using fits f hf)
      (fun k final bytes plain _ high isPlain => by
        obtain ⟨g, hg, sameAad, ⟨c, hc, sameNonce, rfl⟩, same⟩ := opened_of_file ideal isPlain
        obtain rfl := eq_of_header distinct hf hg sameAad
        obtain ⟨rfl, rfl⟩ := nonce_inj high (chunks_index f.some (Nat.zero_le _) _ c hc).2 sameNonce
        exact ⟨hc, same⟩) opened
    refine ⟨f, hf, ?_⟩
    rw [File.encrypted, ← body]
    exact whole

/-! ### Past the index's last step

`index++` stops at 2 ^ 53. The chunks from there on are all sealed under that index. -/

/-- The plaintext without the chunk at position `2 ^ 53`, from the chunk at `index` on. -/
def skipped (chunkSize index : Nat) (plain : Bytes) : Bytes :=
  plain.take ((2 ^ 53 - index) * chunkSize) ++ plain.drop ((2 ^ 53 - index + 1) * chunkSize)

/-- Each chunk of what is left without one is still a chunk of the whole. -/
theorem chunks_skipped (pos : 0 < chunkSize) {index : Nat} (counts : index ≤ 2 ^ 53) (plain : Bytes)
    (exceeds : (2 ^ 53 - index + 1) * chunkSize < plain.length) :
    chunks chunkSize index (skipped chunkSize index plain) ⊆ chunks chunkSize index plain := by
  induction left : 2 ^ 53 - index generalizing index plain with
  | zero =>
    obtain rfl : index = 2 ^ 53 := by omega
    rw [left, Nat.zero_add, Nat.one_mul] at exceeds
    have stops : increment (2 ^ 53) = 2 ^ 53 := if_neg (lt_irrefl _)
    rw [chunks_long exceeds pos, stops, skipped, left, Nat.zero_mul, List.take_zero, Nat.zero_add, Nat.one_mul,
      List.nil_append]
    exact List.subset_cons_self _ _
  | succ n ih =>
    have room : index < 2 ^ 53 := by omega
    have next : 2 ^ 53 - (index + 1) = n := by omega
    rw [left] at exceeds
    have unfolded : (n + 1 + 1) * chunkSize = chunkSize + (n * chunkSize + chunkSize) := by ring
    have before : (n + 1) * chunkSize = chunkSize + n * chunkSize := by ring
    have after : (n + 1 + 1) * chunkSize = chunkSize + (n + 1) * chunkSize := by ring
    have long : chunkSize < plain.length := by omega
    have head : (skipped chunkSize index plain).take chunkSize = plain.take chunkSize := by
      rw [skipped, left, before, List.take_append_of_le_length (by simp; omega), List.take_take,
        min_eq_left (Nat.le_add_right _ _)]
    have rest : (skipped chunkSize index plain).drop chunkSize =
        skipped chunkSize (index + 1) (plain.drop chunkSize) := by
      rw [skipped, skipped, left, next, List.drop_append_of_le_length (by simp; omega), List.drop_drop, ← after,
        List.drop_take, before, Nat.add_sub_cancel_left]
    have longer : chunkSize < (skipped chunkSize index plain).length := by
      simp only [skipped, left, List.length_append, List.length_take, List.length_drop]
      omega
    have fewer : (2 ^ 53 - (index + 1) + 1) * chunkSize < (plain.drop chunkSize).length := by
      rw [next, List.length_drop]
      omega
    rw [chunks_long longer pos, chunks_long long pos, head, rest, increment_lt room]
    exact List.cons_subset_cons _ (ih room (plain.drop chunkSize) fewer next)

/-- The two chunks after the index stopped have one nonce. -/
theorem chunks_repeat (pos : 0 < chunkSize) {index : Nat} (counts : index ≤ 2 ^ 53) (plain : Bytes)
    (exceeds : (2 ^ 53 - index + 2) * chunkSize < plain.length) :
    ¬ ((chunks chunkSize index plain).map fun c => nonce c.1 c.2.1).Nodup := by
  induction left : 2 ^ 53 - index generalizing index plain with
  | zero =>
    obtain rfl : index = 2 ^ 53 := by omega
    rw [left, Nat.zero_add] at exceeds
    have stops : increment (2 ^ 53) = 2 ^ 53 := if_neg (lt_irrefl _)
    have long : chunkSize < plain.length := by omega
    have again : chunkSize < (plain.drop chunkSize).length := by rw [List.length_drop]; omega
    rw [chunks_long long pos, stops, chunks_long again pos]
    simp
  | succ n ih =>
    have room : index < 2 ^ 53 := by omega
    have next : 2 ^ 53 - (index + 1) = n := by omega
    have apart : (n + 1 + 2) * chunkSize = (n + 2) * chunkSize + chunkSize := by ring
    rw [left, apart] at exceeds
    have rest := ih room (plain.drop chunkSize) (by rw [next, List.length_drop]; omega) next
    rw [chunks_long (by omega) pos, increment_lt room, List.map_cons]
    exact fun all => rest (List.nodup_cons.mp all).2

/-- The file without its chunk at position `2 ^ 53`. -/
def File.skipped (f : File) : File := { f with plain := BackupCrypto.skipped f.chunkSize 0 f.plain }

theorem File.skipped_opens (ideal : Ideal crypto master files) {f : File} (hf : f ∈ files)
    (exceeds : (2 ^ 53 + 1) * f.chunkSize < f.plain.length) :
    openBytes crypto master (f.skipped.encrypted crypto master) = .ok f.skipped.plain := by
  have sub : f.skipped.chunks ⊆ f.chunks := chunks_skipped f.some (Nat.zero_le _) f.plain exceeds
  rw [File.encrypted, File.openBytes_eq]
  refine openBody_sealBody f.some 0 f.skipped.plain fun c hc => ?_
  have known : ⟨f.key crypto master, nonce c.1 c.2.1, f.aad crypto master, c.2.2⟩ ∈
      files.flatMap (File.sealings crypto master) :=
    List.mem_flatMap.mpr ⟨f, hf, List.mem_map.mpr ⟨c, sub hc, rfl⟩⟩
  exact openChunk_eq_ok.mpr ((ideal _ _ _ _ _).mpr ⟨known, rfl⟩)

/-- It is not one of the files. -/
theorem File.skipped_differs (distinct : (files.map File.salt).Nodup) {f : File} (hf : f ∈ files)
    (exceeds : (2 ^ 53 + 1) * f.chunkSize < f.plain.length) {g : File} (hg : g ∈ files) :
    f.skipped.encrypted crypto master ≠ g.encrypted crypto master := by
  intro same
  have heads : (f.aad crypto master).length = (g.aad crypto master).length := by
    rw [File.aad, File.aad, length_header f.sized, length_header g.sized]
  obtain ⟨isAad, isBody⟩ := List.append_inj same heads
  obtain rfl := eq_of_header distinct hf hg isAad
  have fewer : f.skipped.plain.length < f.plain.length := by
    have := f.some
    simp only [File.skipped, BackupCrypto.skipped, List.length_append, List.length_take, List.length_drop]
    have : (2 ^ 53 - 0 + 1) * f.chunkSize = (2 ^ 53 - 0) * f.chunkSize + f.chunkSize := by ring
    omega
  have lengths := congrArg List.length isBody
  rw [length_sealBody f.some, length_sealBody f.skipped.some] at lengths
  have chunks : max 1 ((f.skipped.plain.length + f.chunkSize - 1) / f.chunkSize) ≤
      max 1 ((f.plain.length + f.chunkSize - 1) / f.chunkSize) :=
    max_le_max le_rfl (Nat.div_le_div_right (by omega))
  have tags := Nat.mul_le_mul_right tagLen chunks
  have sizes : f.skipped.chunkSize = f.chunkSize := rfl
  rw [sizes] at lengths
  omega

/-- Of files under one master key and salts that differ, the decryptor completes on nothing else and no
nonce is used twice exactly when no file is longer than 2 ^ 53 + 1 chunks. -/
theorem resists_within_the_index (key' : master.length = 32) (distinct : (files.map File.salt).Nodup)
    (ideal : Ideal crypto master files) :
    Resists crypto master files ↔ ∀ f ∈ files, f.plain.length ≤ (2 ^ 53 + 1) * f.chunkSize := by
  constructor
  · rintro ⟨only, -⟩ f hf
    by_contra exceeds
    have opened := f.skipped_opens ideal hf (not_le.mp exceeds)
    obtain ⟨g, hg, made⟩ := only [f.skipped.encrypted crypto master] f.skipped.plain (by
      rw [decrypt_eq key', List.flatten_singleton, opened])
    rw [g.encrypt_eq key', List.flatten_singleton] at made
    exact f.skipped_differs distinct hf (not_le.mp exceeds) hg (Except.ok.inj made).symm
  · intro fits
    refine ⟨fun pieces plain opened => ?_, fun f hf => ?_⟩
    · rw [decrypt_eq key'] at opened
      obtain ⟨f, hf, whole⟩ := decrypted_was_encrypted distinct ideal fits opened
      exact ⟨f, hf, by rw [f.encrypt_eq key', whole]⟩
    · exact chunks_nodup f.some (Nat.zero_le _) f.plain (by simpa using fits f hf)

end

/-! ### An ideal cipher -/

/-- A cipher that opens what was sealed for the files only. -/
def restricted (crypto : NodeCrypto) (master : Bytes) (files : List File) : NodeCrypto :=
  { crypto with
    gcmOpen := fun key nonce aad bytes =>
      ((files.flatMap (File.sealings crypto master)).find? fun s =>
        s.key = key ∧ s.nonce = nonce ∧ s.aad = aad ∧ bytes = crypto.gcmSeal key nonce aad s.plain).map (·.plain) }

theorem restricted_ideal {crypto : NodeCrypto} {master : Bytes} (files : List File)
    (one : ∀ key nonce aad plain plain', crypto.gcmSeal key nonce aad plain = crypto.gcmSeal key nonce aad plain' →
      plain = plain') : Ideal (restricted crypto master files) master files := by
  intro key nonce aad plain bytes
  have same : files.flatMap (File.sealings (restricted crypto master files) master) =
      files.flatMap (File.sealings crypto master) := rfl
  rw [same]
  constructor
  · intro opened
    obtain ⟨s, found, rfl⟩ := Option.map_eq_some_iff.mp opened
    have meets := List.find?_some found
    simp only [decide_eq_true_eq] at meets
    obtain ⟨rfl, rfl, rfl, bytes⟩ := meets
    exact ⟨List.mem_of_find?_eq_some found, bytes⟩
  · rintro ⟨mem, rfl⟩
    cases found : (files.flatMap (File.sealings crypto master)).find? fun s => s.key = key ∧ s.nonce = nonce ∧
        s.aad = aad ∧ crypto.gcmSeal key nonce aad plain = crypto.gcmSeal key nonce aad s.plain with
    | none =>
      have missed := List.find?_eq_none.mp found _ mem
      simp at missed
    | some s =>
      have meets := List.find?_some found
      simp only [decide_eq_true_eq] at meets
      obtain ⟨-, -, -, bytes⟩ := meets
      obtain rfl := one _ _ _ _ _ bytes
      exact Option.map_eq_some_iff.mpr ⟨s, found, rfl⟩

theorem smallCrypto_one (key nonce aad plain plain' : Bytes)
    (same : smallCrypto.gcmSeal key nonce aad plain = smallCrypto.gcmSeal key nonce aad plain') : plain = plain' := by
  obtain ⟨masked, -⟩ := List.append_inj' same rfl
  have unmasked := congrArg (mask (smallGcm nonce).1) masked
  rwa [mask_mask, mask_mask] at unmasked

/-- The small file on its own. -/
theorem five_bytes_resist :
    Resists (restricted smallCrypto (List.replicate 32 1)
        [⟨2, List.replicate 32 2, [10, 11, 12, 13, 14], by decide, by decide, by simp⟩])
      (List.replicate 32 1) [⟨2, List.replicate 32 2, [10, 11, 12, 13, 14], by decide, by decide, by simp⟩] :=
  (resists_within_the_index (by simp) (by simp) (restricted_ideal _ smallCrypto_one)).mpr (by simp)

/-- Zeros in chunks of one byte, three more than the index counts. -/
def longFile : File :=
  { chunkSize := 1, salt := List.replicate 32 2, plain := List.replicate (2 ^ 53 + 3) 0, some := by decide,
    most := by decide, sized := by simp }

def longCrypto : NodeCrypto := restricted smallCrypto (List.replicate 32 1) [longFile]

/-- Two chunks of the file are sealed under one nonce, and without one of them it is still decrypted. -/
theorem index_stops : Ideal longCrypto (List.replicate 32 1) [longFile] ∧ ¬ longFile.nonces.Nodup ∧
    ∃ pieces plain, decrypt longCrypto (List.replicate 32 1) pieces = .ok plain ∧
      encrypt longCrypto (List.replicate 32 1) longFile.chunkSize longFile.salt [longFile.plain] ≠
        .ok pieces.flatten := by
  have key' : (List.replicate 32 1 : Bytes).length = 32 := by simp
  have size : longFile.plain.length = 2 ^ 53 + 3 := List.length_replicate
  have one : longFile.chunkSize = 1 := rfl
  have ideal : Ideal longCrypto (List.replicate 32 1) [longFile] := restricted_ideal [longFile] smallCrypto_one
  have exceeds : (2 ^ 53 + 1) * longFile.chunkSize < longFile.plain.length := by rw [one, size]; omega
  have mem : longFile ∈ [longFile] := List.mem_singleton_self _
  refine ⟨ideal, chunks_repeat longFile.some (Nat.zero_le _) longFile.plain (by rw [one, size]; omega),
    [longFile.skipped.encrypted longCrypto (List.replicate 32 1)], longFile.skipped.plain, ?_, ?_⟩
  · rw [decrypt_eq key', List.flatten_singleton]
    exact longFile.skipped_opens ideal mem exceeds
  · intro same
    rw [longFile.encrypt_eq key', List.flatten_singleton] at same
    exact longFile.skipped_differs (by simp) mem exceeds mem (Except.ok.inj same).symm

end OpenVibeHost.BackupCrypto
