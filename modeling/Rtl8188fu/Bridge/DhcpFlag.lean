import Rtl8188fu.Lib.ByteMemory
import Rtl8188fu.Lib.OnesComplement

namespace Bridge

namespace Dhcp

open ByteMemory ByteOrder OnesComplement

def field (e : Order) (m : Mem UInt8) (a : ℕ) : ℕ := word e (m a) (m (a + 1))

def ihl (m : Mem UInt8) : ℕ := (m 14).toNat % 16

def udph (m : Mem UInt8) : ℕ := 14 + 4 * ihl m

def checkAt (m : Mem UInt8) : ℕ := udph m + 6

def flagsAt (m : Mem UInt8) : ℕ := udph m + 18

def cookieAt (m : Mem UInt8) : ℕ := udph m + 244

structure Request (m : Mem UInt8) : Prop where
  ip : read m 12 2 = [0x08, 0x00]
  udp : m 23 = 17
  source : field .big m (udph m) = 68
  dest : field .big m (udph m + 2) = 67
  cookie : read m (cookieAt m) 4 = [0x63, 0x82, 0x53, 0x63]

instance (m : Mem UInt8) : Decidable (Request m) :=
  decidable_of_iff (read m 12 2 = [0x08, 0x00] ∧ m 23 = 17 ∧ field .big m (udph m) = 68 ∧
    field .big m (udph m + 2) = 67 ∧ read m (cookieAt m) 4 = [0x63, 0x82, 0x53, 0x63])
    ⟨fun h => ⟨h.1, h.2.1, h.2.2.1, h.2.2.2.1, h.2.2.2.2⟩,
      fun h => ⟨h.ip, h.udp, h.source, h.dest, h.cookie⟩⟩

def dhcpFlagBcast (e : Order) (dhcpBcstDisable : Bool) (m : Mem UInt8) : Mem UInt8 :=
  if dhcpBcstDisable then m
  else if Request m then
    let flags := field e m (flagsAt m)
    if flags &&& htons e 0x8000 = 0 then
      let flags := flags ||| htons e 0x8000
      let sum := fold (65535 - field e m (checkAt m) + flags)
      write (write m (flagsAt m) (unword e flags)) (checkAt m) (unword e (65535 - sum))
    else m
  else m

def udpLen (m : Mem UInt8) : ℕ := field .big m (udph m + 4)

def datagramSum (m : Mem UInt8) : ℕ :=
  words .big (read m 26 8) + 17 + udpLen m + words .big (read m (udph m) (udpLen m))

def ChecksumOk (m : Mem UInt8) : Prop :=
  field .big m (checkAt m) = 0 ∨ fold (datagramSum m) = 65535

structure WellFormed (m : Mem UInt8) : Prop where
  request : Request m
  header : 5 ≤ ihl m
  covers : 248 ≤ udpLen m

def Broadcast (m : Mem UInt8) : Prop := 128 ≤ (m (flagsAt m)).toNat

instance (m : Mem UInt8) : Decidable (Broadcast m) := inferInstanceAs (Decidable (128 ≤ _))

structure Marked (m m' : Mem UInt8) : Prop where
  broadcast : Broadcast m'
  flags : (m' (flagsAt m)).toNat % 128 = (m (flagsAt m)).toNat % 128
  others : ∀ i, i ≠ flagsAt m → i ≠ checkAt m → i ≠ checkAt m + 1 → m' i = m i
  checksum : ChecksumOk m'

def UpdateExact (m : Mem UInt8) : Prop :=
  Broadcast m ∨ field .big m (checkAt m) ≡ field .big m (flagsAt m) + 0x8000 [MOD 65535] ∨
    datagramSum m ≡ field .big m (flagsAt m) [MOD 65535]

variable {m m' : Mem UInt8} {e : Order}

def Patched (m m' : Mem UInt8) : Prop :=
  ∀ i, i ≠ checkAt m → i ≠ checkAt m + 1 → i ≠ flagsAt m → i ≠ flagsAt m + 1 → m' i = m i

theorem words_field (e : Order) (m : Mem UInt8) (a n : ℕ) :
    words e (read m a (2 + n)) = field e m a + words e (read m (a + 2) n) := by
  rw [read_add]
  exact words_append (by rw [length_read])

theorem Patched.low (hp : Patched m m') {i : ℕ} (hi : i < udph m + 6) : m' i = m i := by
  have hcheck : checkAt m = udph m + 6 := rfl
  have hflags : flagsAt m = udph m + 18 := rfl
  exact hp i (by omega) (by omega) (by omega) (by omega)

theorem Patched.read_eq (hp : Patched m m') {a n : ℕ}
    (hout : a + n ≤ udph m + 6 ∨ udph m + 8 ≤ a ∧ a + n ≤ udph m + 18 ∨ udph m + 20 ≤ a) :
    read m' a n = read m a n := by
  have hcheck : checkAt m = udph m + 6 := rfl
  have hflags : flagsAt m = udph m + 18 := rfl
  refine read_congr fun i hi hin => ?_
  exact hp i (by omega) (by omega) (by omega) (by omega)

section Header

variable (h : WellFormed m)

include h

theorem WellFormed.udph_ge : 34 ≤ udph m := by
  have hheader := h.header
  simp only [udph]
  omega

theorem WellFormed.words_eq : words .big (read m (udph m) (udpLen m)) =
    words .big (read m (udph m) 6) + (field .big m (checkAt m) +
      (words .big (read m (udph m + 8) 10) + (field .big m (flagsAt m) +
        words .big (read m (udph m + 20) (udpLen m - 20))))) := by
  have hcovers := h.covers
  have hlen : udpLen m = 6 + (2 + (10 + (2 + (udpLen m - 20)))) := by omega
  rw [hlen, words_read_add _ _ _ rfl, words_field, words_read_add _ _ _ rfl, words_field, ← hlen]
  rfl

variable (hp : Patched m m')

include hp

theorem WellFormed.udph_eq : udph m' = udph m := by
  have hge := h.udph_ge
  simp only [udph, ihl, hp.low (by omega : 14 < udph m + 6)]

theorem WellFormed.udpLen_eq : udpLen m' = udpLen m := by
  simp only [udpLen, field, h.udph_eq hp, hp.low (by omega : udph m + 4 < udph m + 6),
    hp.low (by omega : udph m + 4 + 1 < udph m + 6)]

theorem WellFormed.kept : WellFormed m' := by
  have hge := h.udph_ge
  have hudph := h.udph_eq hp
  have hreq := h.request
  have hcookie : cookieAt m = udph m + 244 := rfl
  refine ⟨⟨?_, ?_, ?_, ?_, ?_⟩, ?_, ?_⟩
  · rw [hp.read_eq (.inl (by omega))]
    exact hreq.ip
  · rw [hp.low (by omega)]
    exact hreq.udp
  · simp only [field, hudph, hp.low (by omega : udph m < udph m + 6),
      hp.low (by omega : udph m + 1 < udph m + 6)]
    exact hreq.source
  · simp only [field, hudph, hp.low (by omega : udph m + 2 < udph m + 6),
      hp.low (by omega : udph m + 2 + 1 < udph m + 6)]
    exact hreq.dest
  · rw [cookieAt, hudph, ← hcookie, hp.read_eq (.inr (.inr (by omega)))]
    exact hreq.cookie
  · simp only [ihl, hp.low (by omega : 14 < udph m + 6)]
    exact h.header
  · rw [h.udpLen_eq hp]
    exact h.covers

theorem WellFormed.sum_patched :
    datagramSum m' + (field .big m (checkAt m) + field .big m (flagsAt m)) =
      datagramSum m + (field .big m' (checkAt m) + field .big m' (flagsAt m)) := by
  have hge := h.udph_ge
  have hudph := h.udph_eq hp
  have hcheck : checkAt m' = checkAt m := congrArg (· + 6) hudph
  have hflags : flagsAt m' = flagsAt m := congrArg (· + 18) hudph
  rw [datagramSum, datagramSum, (h.kept hp).words_eq, h.words_eq, hcheck, hflags,
    h.udpLen_eq hp, hudph, hp.read_eq (.inl (by omega)), hp.read_eq (.inl (by omega)),
    hp.read_eq (.inr (.inl (by omega))), hp.read_eq (.inr (.inr (by omega)))]
  omega

end Header

theorem bit_clear (e : Order) (m : Mem UInt8) (a : ℕ) :
    field e m a &&& htons e 0x8000 = 0 ↔ (m a).toNat < 128 := by
  have ha := (m a).toNat_lt
  have hb := (m (a + 1)).toNat_lt
  cases e with
  | little =>
    rw [show htons .little 0x8000 = 2 ^ 7 from rfl, and_two_pow_zero]
    simp only [field, word]
    omega
  | big =>
    rw [show htons .big 0x8000 = 2 ^ 15 from rfl, and_two_pow_zero]
    simp only [field, word]
    omega

structure MarkedWord (e : Order) (m : Mem UInt8) (a : ℕ) (x : UInt8) : Prop where
  byte : x.toNat = (m a).toNat + 128
  word : field e m a ||| htons e 0x8000 = ByteOrder.word e x (m (a + 1))

theorem exists_markedWord {a : ℕ} (h : (m a).toNat < 128) : ∃ x, MarkedWord e m a x := by
  have hbyte : (UInt8.ofNat ((m a).toNat + 128)).toNat = (m a).toNat + 128 := by
    rw [UInt8.toNat_ofNat', Nat.mod_eq_of_lt (by omega)]
  refine ⟨UInt8.ofNat ((m a).toNat + 128), hbyte, ?_⟩
  have hclear := (bit_clear e m a).mpr h
  cases e with
  | little =>
    rw [show htons .little 0x8000 = 2 ^ 7 from rfl] at hclear ⊢
    rw [or_two_pow hclear, field, word, word, hbyte]
    omega
  | big =>
    rw [show htons .big 0x8000 = 2 ^ 15 from rfl] at hclear ⊢
    rw [or_two_pow hclear, field, word, word, hbyte]
    omega

structure Updated (e : Order) (m m' : Mem UInt8) : Prop where
  patched : Patched m m'
  first : (m' (flagsAt m)).toNat = (m (flagsAt m)).toNat + 128
  second : m' (flagsAt m + 1) = m (flagsAt m + 1)
  check : field e m' (checkAt m) =
    65535 - fold (65535 - field e m (checkAt m) + field e m' (flagsAt m))

theorem updated (hreq : Request m) (hclear : ¬ Broadcast m) :
    Updated e m (dhcpFlagBcast e false m) := by
  have hlt : (m (flagsAt m)).toNat < 128 := Nat.not_le.mp hclear
  obtain ⟨x, hx⟩ := exists_markedWord (e := e) hlt
  have hfold := fold_lt (65535 - field e m (checkAt m) + word e x (m (flagsAt m + 1)))
  obtain ⟨p, q, hpq⟩ := exists_word e (n := 65535 -
    fold (65535 - field e m (checkAt m) + word e x (m (flagsAt m + 1)))) (by omega)
  have hrun : dhcpFlagBcast e false m =
      write (write m (flagsAt m) [x, m (flagsAt m + 1)]) (checkAt m) [p, q] := by
    rw [dhcpFlagBcast, if_neg (by decide), if_pos hreq]
    dsimp only
    rw [if_pos ((bit_clear e m _).mpr hlt), hx.word, unword_word, ← hpq, unword_word]
  have hcheck : checkAt m = udph m + 6 := rfl
  have hflags : flagsAt m = udph m + 18 := rfl
  have hfirst : dhcpFlagBcast e false m (flagsAt m) = x := by
    rw [hrun, write_pair, write_pair, if_neg (by omega), if_neg (by omega), if_pos rfl]
  have hsecond : dhcpFlagBcast e false m (flagsAt m + 1) = m (flagsAt m + 1) := by
    rw [hrun, write_pair, write_pair, if_neg (by omega), if_neg (by omega), if_neg (by omega),
      if_pos rfl]
  refine ⟨fun i h0 h1 h2 h3 => ?_, ?_, hsecond, ?_⟩
  · rw [hrun, write_pair, write_pair, if_neg h0, if_neg h1, if_neg h2, if_neg h3]
  · rw [hfirst, hx.byte]
  · have hnew : field e (dhcpFlagBcast e false m) (flagsAt m) = word e x (m (flagsAt m + 1)) := by
      rw [field, hfirst, hsecond]
    have hlow : dhcpFlagBcast e false m (checkAt m) = p := by
      rw [hrun, write_pair, if_pos rfl]
    have hhigh : dhcpFlagBcast e false m (checkAt m + 1) = q := by
      rw [hrun, write_pair, if_neg (by omega), if_pos rfl]
    rw [hnew, ← hpq, field, hlow, hhigh]

theorem updated_word (hup : Updated e m m') :
    field .big m' (flagsAt m) = field .big m (flagsAt m) + 0x8000 := by
  simp only [field, word, hup.first, hup.second]
  omega

theorem updated_check (hup : Updated e m m') :
    field .big m' (checkAt m) + field .big m' (flagsAt m) ≡ field .big m (checkAt m)
      [MOD 65535] := by
  have hnative := complement_modEq (f := field e m' (flagsAt m)) (word_lt e (m (checkAt m))
    (m (checkAt m + 1)))
  refine scale_cancel (e := e) ?_
  rw [Nat.mul_add]
  have hold := word_modEq e (m (checkAt m)) (m (checkAt m + 1))
  have hnew := (word_modEq e (m' (checkAt m)) (m' (checkAt m + 1))).add
    (word_modEq e (m' (flagsAt m)) (m' (flagsAt m + 1)))
  refine hnew.symm.trans (Nat.ModEq.trans ?_ hold)
  rw [show word e (m' (checkAt m)) (m' (checkAt m + 1)) = field e m' (checkAt m) from rfl, hup.check]
  exact hnative

theorem updated_unused (hup : Updated e m m') :
    field .big m' (checkAt m) = 0 ↔
      field .big m (checkAt m) ≡ field .big m (flagsAt m) + 0x8000 [MOD 65535] := by
  have hpos : 0 < field e m' (flagsAt m) := by
    have hfirst := hup.first
    cases e with
    | little =>
      simp only [field, word]
      omega
    | big =>
      simp only [field, word]
      omega
  have hzero := complement_zero (word_lt e (m (checkAt m)) (m (checkAt m + 1))) hpos
  have hbytes : field .big m' (checkAt m) = 0 ↔ field e m' (checkAt m) = 0 := by
    rw [field, field, word_eq_zero, word_eq_zero]
  rw [hbytes, hup.check, ← updated_word hup]
  refine hzero.trans ⟨fun h => scale_cancel (e := e) ?_, fun h => ?_⟩
  · exact ((word_modEq e _ _).symm.trans h).trans (word_modEq e _ _)
  · exact ((word_modEq e _ _).trans (h.mul_left (scale e))).trans (word_modEq e _ _).symm

theorem sum_pos (m : Mem UInt8) : 0 < datagramSum m := by
  rw [datagramSum]
  omega

theorem updated_valid (h : WellFormed m) (hup : Updated e m m') :
    fold (datagramSum m') = 65535 ↔ datagramSum m ≡ field .big m (flagsAt m) [MOD 65535] := by
  have hsum := h.sum_patched hup.patched
  have hcheck := (updated_check hup).add_left (datagramSum m)
  rw [← hsum] at hcheck
  have hmod : datagramSum m' + field .big m (flagsAt m) ≡ datagramSum m [MOD 65535] := by
    refine Nat.ModEq.add_right_cancel' (field .big m (checkAt m)) ?_
    rw [Nat.add_assoc, Nat.add_comm (field .big m (flagsAt m))]
    exact hcheck
  rw [fold_full_iff (sum_pos m')]
  constructor
  · intro hzero
    have hflags := hzero.add_right (field .big m (flagsAt m))
    rw [Nat.zero_add] at hflags
    exact hmod.symm.trans hflags
  · intro hflags
    refine Nat.ModEq.add_right_cancel' (field .big m (flagsAt m)) ?_
    rw [Nat.zero_add]
    exact hmod.trans hflags

theorem updated_sound (h : WellFormed m) (hclear : ¬ Broadcast m) :
    ChecksumOk (dhcpFlagBcast e false m) ↔ UpdateExact m := by
  have hup := updated (e := e) h.request hclear
  have hcheck : checkAt (dhcpFlagBcast e false m) = checkAt m :=
    congrArg (· + 6) (h.udph_eq hup.patched)
  rw [ChecksumOk, hcheck, updated_unused hup, updated_valid h hup, UpdateExact]
  exact (or_iff_right hclear).symm

theorem already_broadcast (hreq : Request m) (hset : Broadcast m) :
    dhcpFlagBcast e false m = m := by
  rw [dhcpFlagBcast, if_neg (by decide), if_pos hreq]
  exact if_neg fun hclear => Nat.not_lt.mpr hset ((bit_clear e m _).mp hclear)

theorem updateExact_valid (hvalid : fold (datagramSum m) = 65535) : UpdateExact m ↔
    Broadcast m ∨ field .big m (checkAt m) ≡ field .big m (flagsAt m) + 0x8000 [MOD 65535] ∨
      field .big m (flagsAt m) = 0 := by
  have hzero := (fold_full_iff (sum_pos m)).mp hvalid
  refine or_congr_right' fun hclear => or_congr_right ?_
  have hlt : field .big m (flagsAt m) < 0x8000 := by
    have hfirst : (m (flagsAt m)).toNat < 128 := Nat.not_le.mp hclear
    have hsecond := (m (flagsAt m + 1)).toNat_lt
    simp only [field, word]
    omega
  constructor
  · intro hflags
    have hmod : 0 % 65535 = field .big m (flagsAt m) % 65535 := hzero.symm.trans hflags
    omega
  · intro hflags
    rw [hflags]
    exact hzero

theorem dhcp_flag_law (e : Order) (m : Mem UInt8) (h : WellFormed m) (hok : ChecksumOk m) :
    Marked m (dhcpFlagBcast e false m) ↔ UpdateExact m := by
  cases Decidable.em (128 ≤ (m (flagsAt m)).toNat) with
  | inl hset =>
    rw [already_broadcast h.request hset]
    exact iff_of_true ⟨hset, rfl, fun _ _ _ _ => rfl, hok⟩ (.inl hset)
  | inr hclear =>
    have hup := updated (e := e) h.request hclear
    have hsound := updated_sound (e := e) h hclear
    have hflags : flagsAt (dhcpFlagBcast e false m) = flagsAt m :=
      congrArg (· + 18) (h.udph_eq hup.patched)
    have hfirst := hup.first
    constructor
    · exact fun hmarked => hsound.mp hmarked.checksum
    · intro hexact
      refine ⟨?_, by omega, fun i h0 h1 h2 => ?_, hsound.mpr hexact⟩
      · rw [Broadcast, hflags]
        omega
      · cases Decidable.em (i = flagsAt m + 1) with
        | inl heq => rw [heq, hup.second]
        | inr hne => exact hup.patched i h1 h2 h0 hne

def discover : Mem UInt8
  | 12 => 0x08
  | 14 => 0x45
  | 23 => 17
  | 30 => 255
  | 31 => 255
  | 32 => 255
  | 33 => 255
  | 35 => 68
  | 37 => 67
  | 39 => 248
  | 42 => 1
  | 278 => 0x63
  | 279 => 0x82
  | 280 => 0x53
  | 281 => 0x63
  | _ => 0

theorem discover_wellFormed : WellFormed discover :=
  ⟨by decide, by decide, by decide⟩

theorem dhcp_flag_discover :
    Marked discover (dhcpFlagBcast .little false discover) ↔ UpdateExact discover :=
  dhcp_flag_law .little discover discover_wellFormed (.inl rfl)

theorem unused_checksum_spoiled : WellFormed discover ∧ ChecksumOk discover ∧
    ¬ Marked discover (dhcpFlagBcast .little false discover) := by
  refine ⟨discover_wellFormed, .inl rfl, fun hmarked => ?_⟩
  have hexact := (updated_sound discover_wellFormed (by decide)).mp hmarked.checksum
  rcases hexact with hset | hcheck | hsum
  · exact absurd hset (by decide)
  · exact absurd hcheck (by decide)
  · exact absurd hsum (by decide +kernel)

end Dhcp

end Bridge
