import Rtl8188fu.Efuse.PacketWrite

namespace Efuse

theorem wordEnabled_clearBit {w : UInt8} {i j : ℕ} (hw : w.toNat < 16) (hi : i < 4) (hj : j < 4) :
    wordEnabled (clearBit w i) j = true ↔ i = j ∨ wordEnabled w j = true := by
  have hall : ∀ (w : Fin 16) (i j : Fin 4), wordEnabled (clearBit (UInt8.ofNat w) i) j = true ↔
      i.val = j.val ∨ wordEnabled (UInt8.ofNat w) j = true := by decide +kernel
  have h := hall ⟨_, hw⟩ ⟨_, hi⟩ ⟨_, hj⟩
  rwa [UInt8.ofNat_toNat] at h

theorem clearBit_lt {w : UInt8} {i : ℕ} (hw : w.toNat < 16) (hi : i < 4) :
    (clearBit w i).toNat < 16 := by
  have hall : ∀ (w : Fin 16) (i : Fin 4), (clearBit (UInt8.ofNat w) i).toNat < 16 := by
    decide +kernel
  have h := hall ⟨_, hw⟩ ⟨_, hi⟩
  rwa [UInt8.ofNat_toNat] at h

theorem wordEn_full {w : UInt8} (hw : w.toNat < 16) :
    w = 0x0F ↔ ∀ i < 4, ¬wordEnabled w i = true := by
  have hall : ∀ w : Fin 16, UInt8.ofNat w = 0x0F ↔
      ∀ i < 4, ¬wordEnabled (UInt8.ofNat w) i = true := by decide +kernel
  have h := hall ⟨_, hw⟩
  rwa [UInt8.ofNat_toNat] at h

section Sections

variable {efuse map : ℕ → UInt8} {addr cnts : ℕ}

structure Differs (efuse map : ℕ → UInt8) (last offset i n : ℕ) : Prop where
  first : i ≤ n
  inside : n < 8
  before : offset * 8 + n < last
  ne : efuse (offset * 8 + n) ≠ map (offset * 8 + n)

theorem Differs.succ {last offset i n : ℕ} (h : Differs efuse map last offset (i + 1) n) :
    Differs efuse map last offset i n :=
  ⟨Nat.le_of_succ_le h.first, h.inside, h.before, h.ne⟩

theorem Differs.cases {last offset i n : ℕ} (h : Differs efuse map last offset i n) :
    n = i ∨ Differs efuse map last offset (i + 1) n := by
  rcases Nat.eq_or_lt_of_le h.first with heq | hlt
  · exact .inl heq.symm
  · exact .inr ⟨hlt, h.inside, h.before, h.ne⟩

structure Collects (efuse map : ℕ → UInt8) (last offset i : ℕ) (s r : Changes) : Prop where
  wordEn : r.wordEn.toNat < 16
  enabled : ∀ w < 4, wordEnabled r.wordEn w = true ↔
    wordEnabled s.wordEn w = true ∨ ∃ n, Differs efuse map last offset i n ∧ n / 2 = w
  changed : ∀ n, Differs efuse map last offset i n → r.newdata n = efuse (offset * 8 + n)
  kept : ∀ n, ¬Differs efuse map last offset i n → r.newdata n = s.newdata n

theorem sectionChanges_collects (offset i : ℕ) (s : Changes) (hpos : addr + s.idx = offset * 8 + i)
    (hwords : s.wordEn.toNat < 16) :
    Collects efuse map (addr + cnts) offset i s (sectionChanges efuse map addr cnts i s) := by
  induction hn : 8 - i generalizing i s with
  | zero =>
    have hnone : ∀ n, ¬Differs efuse map (addr + cnts) offset i n :=
      fun n h => by have := h.first; have := h.inside; omega
    unfold sectionChanges
    rw [if_neg (by omega)]
    refine ⟨hwords, fun w _ => ?_, fun n h => absurd h (hnone n), fun _ _ => rfl⟩
    exact ⟨.inl, fun h => h.resolve_right fun ⟨n, hd, _⟩ => hnone n hd⟩
  | succ k ih =>
    unfold sectionChanges
    cases Decidable.em (s.idx < cnts) with
    | inl hidx =>
      rw [if_pos ⟨by omega, hidx⟩]
      cases Decidable.em (efuse (addr + s.idx) ≠ map (addr + s.idx)) with
      | inl hne =>
        rw [if_pos hne, hpos]
        have hi : i / 2 < 4 := by omega
        have hr := ih (i + 1) ⟨s.idx + 1, clearBit s.wordEn (i / 2),
          Function.update s.newdata i (efuse (offset * 8 + i))⟩ (by dsimp only; omega)
          (clearBit_lt hwords hi) (by omega)
        have hhere : Differs efuse map (addr + cnts) offset i i :=
          ⟨Nat.le_refl _, by omega, by omega, hpos ▸ hne⟩
        have hnot : ¬Differs efuse map (addr + cnts) offset (i + 1) i := fun h => by
          have := h.first
          omega
        refine ⟨hr.wordEn, fun w hw => ?_, fun n h => ?_, fun n h => ?_⟩
        · rw [hr.enabled w hw, wordEnabled_clearBit hwords hi hw]
          constructor
          · rintro ((rfl | hold) | ⟨n, hd, hnw⟩)
            · exact .inr ⟨i, hhere, rfl⟩
            · exact .inl hold
            · exact .inr ⟨n, hd.succ, hnw⟩
          · rintro (hold | ⟨n, hd, rfl⟩)
            · exact .inl (.inr hold)
            · rcases hd.cases with rfl | hnext
              · exact .inl (.inl rfl)
              · exact .inr ⟨n, hnext, rfl⟩
        · rcases h.cases with rfl | hnext
          · rw [hr.kept _ hnot]
            exact Function.update_self ..
          · exact hr.changed n hnext
        · rw [hr.kept n fun hd => h hd.succ]
          refine Function.update_of_ne (fun heq => h ?_) ..
          rw [heq]
          exact hhere
      | inr hne =>
        rw [if_neg hne]
        have hr := ih (i + 1) { s with idx := s.idx + 1 } (by dsimp only; omega) hwords (by omega)
        have hsame : ∀ n, Differs efuse map (addr + cnts) offset i n →
            Differs efuse map (addr + cnts) offset (i + 1) n := by
          intro n h
          refine h.cases.resolve_left fun heq => hne ?_
          rw [hpos, ← heq]
          exact h.ne
        refine ⟨hr.wordEn, fun w hw => ?_, fun n h => hr.changed n (hsame n h),
          fun n h => hr.kept n fun hd => h hd.succ⟩
        rw [hr.enabled w hw]
        refine or_congr Iff.rfl ⟨?_, ?_⟩
        · rintro ⟨n, hd, hnw⟩
          exact ⟨n, hd.succ, hnw⟩
        · rintro ⟨n, hd, hnw⟩
          exact ⟨n, hsame n hd, hnw⟩
    | inr hidx =>
      have hnone : ∀ n, ¬Differs efuse map (addr + cnts) offset i n :=
        fun n h => by have := h.first; have := h.before; omega
      rw [if_neg fun h => hidx h.2]
      refine ⟨hwords, fun w _ => ?_, fun n h => absurd h (hnone n), fun _ _ => rfl⟩
      exact ⟨.inl, fun h => h.resolve_right fun ⟨n, hd, _⟩ => hnone n hd⟩

structure Aligned (addr cnts idx offset : ℕ) : Prop where
  within : idx < cnts → offset * 8 ≤ addr + idx ∧ addr + idx < offset * 8 + 8 ∧
    (idx = 0 ∨ addr + idx = offset * 8)
  done : cnts ≤ idx → cnts = 0 ∨ addr + cnts ≤ offset * 8

theorem Aligned.start (addr cnts : ℕ) : Aligned addr cnts 0 (addr / 8) :=
  ⟨fun _ => ⟨by omega, by omega, .inl rfl⟩, fun h => .inl (by omega)⟩

theorem Aligned.next {idx offset : ℕ} (h : Aligned addr cnts idx offset) (hidx : idx < cnts) :
    Aligned addr cnts (changesAt efuse map addr cnts idx offset).idx (offset + 1) := by
  obtain ⟨hlow, hhigh, -⟩ := h.within hidx
  rw [changesAt_idx]
  exact ⟨fun _ => ⟨by omega, by omega, .inr (by omega)⟩, fun _ => .inr (by omega)⟩

structure Section (efuse map : ℕ → UInt8) (offset : ℕ) (r : Changes) : Prop where
  wordEn : r.wordEn.toNat < 16
  enabled : ∀ n < 8, efuse (offset * 8 + n) ≠ map (offset * 8 + n) →
    wordEnabled r.wordEn (n / 2) = true
  newdata : ∀ n < 8, r.newdata n = efuse (offset * 8 + n)

theorem changesAt_section {idx offset : ℕ} (h : Aligned addr cnts idx offset) (hidx : idx < cnts)
    (houtside : ∀ a, ¬(addr ≤ a ∧ a < addr + cnts) → efuse a = map a) :
    Section efuse map offset (changesAt efuse map addr cnts idx offset) := by
  obtain ⟨hlow, hhigh, hfirst⟩ := h.within hidx
  have hr := @sectionChanges_collects efuse map addr cnts offset ((addr + idx) % 8)
    ⟨idx, 0x0F, fun i => map (offset * 8 + i)⟩ (by dsimp only; omega)
    (show (0x0F : UInt8).toNat < 16 by decide)
  have hdiffers : ∀ n < 8, efuse (offset * 8 + n) ≠ map (offset * 8 + n) →
      Differs efuse map (addr + cnts) offset ((addr + idx) % 8) n := by
    intro n hn hne
    have hin : addr ≤ offset * 8 + n ∧ offset * 8 + n < addr + cnts := by
      by_contra hout
      exact hne (houtside _ hout)
    exact ⟨by omega, hn, hin.2, hne⟩
  refine ⟨hr.wordEn, fun n hn hne => ?_, fun n hn => ?_⟩
  · exact (hr.enabled (n / 2) (by omega)).mpr (.inr ⟨n, hdiffers n hn hne, rfl⟩)
  · cases Decidable.em (efuse (offset * 8 + n) = map (offset * 8 + n)) with
    | inl hne =>
      rw [hne]
      exact hr.kept n fun hd => hd.ne hne
    | inr hne => exact hr.changed n (hdiffers n hn hne)

theorem chkTotalByte_add (idx offset total : ℕ) :
    chkTotalByte efuse map addr cnts idx offset total =
      total + chkTotalByte efuse map addr cnts idx offset 0 := by
  induction hn : cnts - idx using Nat.strongRecOn generalizing idx offset total with
  | _ n ih =>
    unfold chkTotalByte
    cases Decidable.em (idx < cnts) with
    | inl hidx =>
      have hless : cnts - (changesAt efuse map addr cnts idx offset).idx < n := by
        rw [changesAt_idx]
        omega
      rw [if_pos hidx, if_pos hidx]
      dsimp only
      rw [ih _ hless _ _ (total + _) rfl, ih _ hless _ _ (0 + _) rfl, Nat.zero_add, Nat.add_assoc]
    | inr hidx => rw [if_neg hidx, if_neg hidx, Nat.add_zero]

theorem pgBytes_le (wordEn : UInt8) (offset : ℕ) : pgBytes wordEn offset ≤ 10 := by
  have hcnt : calculateWordCnts wordEn ≤ 4 := List.countP_le_length
  unfold pgBytes
  split
  · split <;> omega
  · omega

theorem chkTotalByte_le (idx offset : ℕ) :
    chkTotalByte efuse map addr cnts idx offset 0 ≤ 10 * (cnts - idx) := by
  induction hn : cnts - idx using Nat.strongRecOn generalizing idx offset with
  | _ n ih =>
    unfold chkTotalByte
    cases Decidable.em (idx < cnts) with
    | inl hidx =>
      have hstep := changesAt_idx efuse map addr cnts idx offset
      rw [if_pos hidx]
      dsimp only
      rw [chkTotalByte_add]
      have hrest := ih _ (by omega) (changesAt efuse map addr cnts idx offset).idx (offset + 1) rfl
      have hbytes := pgBytes_le (changesAt efuse map addr cnts idx offset).wordEn offset
      omega
    | inr hidx =>
      rw [if_neg hidx]
      exact Nat.zero_le _

end Sections

theorem Holds.concat {ps : List Packet} {k : ℕ} {e : EfuseHal} (h : Holds ps k e) (p : Packet)
    (hroom : p.bytes.length ≤ k) :
    Holds (ps ++ [p]) (k - p.bytes.length)
      ⟨encode (ps ++ [p]) ++ List.replicate (k - p.bytes.length) 0xFF, (encode ps).length⟩ := by
  have hlen := h.length
  have hpos : 0 < p.bytes.length := Nat.succ_pos _
  refine ⟨rfl, ?_, .inr (.inr ⟨?_, ?_⟩)⟩
  · rw [encode_concat, List.length_append]
    omega
  · dsimp only
    omega
  · dsimp only
    rw [oneByteRead_drop, encode_concat, List.append_assoc, List.drop_left]
    exact p.complete.1

theorem replay_concat (ps : List Packet) (p : Packet) :
    replay (ps ++ [p]) = p.apply (replay ps) := by
  rw [replay, List.foldl_append]
  rfl

section Writes

variable {program : UInt8 → UInt8 → UInt8} {efuse map : ℕ → UInt8} {addr cnts : ℕ}

structure Written (efuse map : ℕ → UInt8) (offset : ℕ) (ps : List Packet) : Prop where
  before : ∀ a < offset * 8, replay ps a = efuse a
  after : ∀ a, offset * 8 ≤ a → a < efuseMapLen → replay ps a = map a

theorem toNat_offset {offset : ℕ} (h : offset < efuseMaxSection) :
    (UInt8.ofNat offset).toNat = offset := by
  have hmax : efuseMaxSection = 64 := rfl
  rw [UInt8.toNat_ofNat']
  omega

theorem pgPacket_bytes (p : PgPkt) (h : Headed p) :
    (pgPacket p h).bytes.length = calculateWordCnts p.wordEn * 2 +
      if efuseMaxSectionBase ≤ p.offset.toNat then 2 else 1 := by
  rw [length_pgPacket, length_packedWords, ← calculateWordCnts, pgHeaders]
  split
  · exact Nat.add_comm ..
  · exact Nat.add_comm ..

theorem Written.same {offset : ℕ} {ps : List Packet} (h : Written efuse map offset ps)
    (hsame : ∀ n < 8, efuse (offset * 8 + n) = map (offset * 8 + n))
    (hoffset : offset < efuseMaxSection) : Written efuse map (offset + 1) ps := by
  refine ⟨fun a ha => ?_, fun a ha => h.after a (by omega)⟩
  cases Decidable.em (a < offset * 8) with
  | inl hbefore => exact h.before a hbefore
  | inr hbefore =>
    have hmax : offset < 64 := hoffset
    have hlen : efuseMapLen = 512 := rfl
    have hat : offset * 8 + (a - offset * 8) = a := by omega
    have hn := hsame (a - offset * 8) (by omega)
    rw [hat] at hn
    rw [hn]
    exact h.after a (by omega) (by omega)

theorem Written.packet {offset : ℕ} {ps : List Packet} {s : Changes}
    (h : Written efuse map offset ps) (hs : Section efuse map offset s)
    (hoffset : offset < efuseMaxSection)
    (hheaded : Headed (halEfuseConstructPGPkt (UInt8.ofNat offset) s.wordEn s.newdata)) :
    Written efuse map (offset + 1) (ps ++ [pgPacket _ hheaded]) := by
  have hmax : offset < 64 := hoffset
  have hlen : efuseMapLen = 512 := rfl
  have hoff : (UInt8.ofNat offset).toNat = offset := toNat_offset hoffset
  have happly (a : ℕ) : replay (ps ++ [pgPacket _ hheaded]) a =
      if a / 8 = offset ∧ wordEnabled s.wordEn (a % 8 / 2) = true then efuse a
      else replay ps a := by
    rw [replay_concat, pgPacket_apply _ _ (hoff.symm ▸ hoffset)]
    change (if a / 8 = (UInt8.ofNat offset).toNat ∧ wordEnabled s.wordEn (a % 8 / 2) = true then
      (halEfuseConstructPGPkt (UInt8.ofNat offset) s.wordEn s.newdata).data (a % 8)
      else replay ps a) = _
    rw [hoff]
    cases Decidable.em (a / 8 = offset ∧ wordEnabled s.wordEn (a % 8 / 2) = true) with
    | inl hin =>
      rw [if_pos hin, if_pos hin]
      refine (if_pos hin.2).trans ?_
      rw [hs.newdata _ (by omega)]
      exact congrArg efuse (by omega)
    | inr hin => rw [if_neg hin, if_neg hin]
  refine ⟨fun a ha => ?_, fun a hle ha => ?_⟩
  · rw [happly]
    cases Decidable.em (a / 8 = offset ∧ wordEnabled s.wordEn (a % 8 / 2) = true) with
    | inl hin => rw [if_pos hin]
    | inr hin =>
      rw [if_neg hin]
      cases Decidable.em (a < offset * 8) with
      | inl hbefore => exact h.before a hbefore
      | inr hbefore =>
        rw [h.after a (by omega) (by omega)]
        by_contra hne
        have hat : offset * 8 + a % 8 = a := by omega
        refine hin ⟨by omega, hs.enabled (a % 8) (by omega) ?_⟩
        rw [hat]
        exact fun heq => hne heq.symm
  · rw [happly, if_neg fun hin => by omega]
    exact h.after a (by omega) ha

theorem writeLoop_writes (hprogram : ∀ d, program 0xFF d = d)
    (houtside : ∀ a, ¬(addr ≤ a ∧ a < addr + cnts) → efuse a = map a)
    (hmap : addr + cnts ≤ efuseMapLen) {idx offset : ℕ} {ps : List Packet} {k : ℕ} {e : EfuseHal}
    (hholds : Holds ps k e) (haligned : Aligned addr cnts idx offset)
    (hwritten : Written efuse map offset ps)
    (hroom : (encode ps).length + chkTotalByte efuse map addr cnts idx offset 0 ≤
      availableEfuseBytes) :
    ∃ ps' k', Holds ps' k' (writeLoop program efuse map addr cnts idx offset e).1 ∧
      (writeLoop program efuse map addr cnts idx offset e).2 = true ∧
        ∀ a < efuseMapLen, replay ps' a = efuse a := by
  induction hn : cnts - idx using Nat.strongRecOn generalizing idx offset ps k e with
  | _ n ih =>
    have hlen : efuseMapLen = 512 := rfl
    have hreal : efuseRealContentLen = 256 := rfl
    have havail : availableEfuseBytes = 221 := rfl
    unfold writeLoop
    cases Decidable.em (idx < cnts) with
    | inl hidx =>
      have hsection := @changesAt_section efuse map _ _ _ _ haligned hidx houtside
      have hnext := @Aligned.next efuse map _ _ _ _ haligned hidx
      obtain ⟨hlow, -, -⟩ := haligned.within hidx
      have hoffset : offset < efuseMaxSection := by
        have hmax : efuseMaxSection = 64 := rfl
        omega
      have hless : cnts - (changesAt efuse map addr cnts idx offset).idx < n := by
        rw [changesAt_idx]
        omega
      unfold chkTotalByte at hroom
      rw [if_pos hidx] at hroom ⊢
      dsimp only at hroom ⊢
      rw [chkTotalByte_add, Nat.zero_add, pgBytes] at hroom
      generalize hs : changesAt efuse map addr cnts idx offset = s at *
      cases Decidable.em (s.wordEn ≠ 0x0F) with
      | inl hwords =>
        rw [if_pos hwords] at hroom ⊢
        have hoff : (UInt8.ofNat offset).toNat = offset := toNat_offset hoffset
        have hheaded := headed (halEfuseConstructPGPkt (UInt8.ofNat offset) s.wordEn s.newdata)
          (hoff.symm ▸ hoffset) (by
            have hlt := hsection.wordEn
            have hne : s.wordEn.toNat ≠ 0x0F := fun heq => hwords (UInt8.toNat_inj.mp heq)
            exact Nat.lt_of_le_of_ne (Nat.le_of_lt_succ hlt) hne)
        have hbytes := pgPacket_bytes _ hheaded
        change _ = calculateWordCnts s.wordEn * 2 +
          (if efuseMaxSectionBase ≤ (UInt8.ofNat offset).toNat then 2 else 1) at hbytes
        rw [hoff] at hbytes
        have htotal := hholds.length
        have hfits : (pgPacket _ hheaded).bytes.length ≤ k := by omega
        rw [efuseRealContentLen, pgPacketWrite_appends hprogram hholds 255 hheaded (by omega)]
        refine ih _ hless (hholds.concat _ hfits) hnext
          (hwritten.packet hsection hoffset hheaded) ?_ rfl
        rw [encode_concat, List.length_append]
        omega
      | inr hwords =>
        rw [if_neg hwords] at hroom ⊢
        have hsame : ∀ n < 8, efuse (offset * 8 + n) = map (offset * 8 + n) := by
          intro n hn
          by_contra hne
          exact (wordEn_full hsection.wordEn).mp (not_not.mp hwords) _ (by omega)
            (hsection.enabled n hn hne)
        exact ih _ hless hholds hnext (hwritten.same hsame hoffset) (by omega) rfl
    | inr hidx =>
      rw [if_neg hidx]
      refine ⟨ps, k, hholds, rfl, fun a ha => ?_⟩
      cases Decidable.em (a < offset * 8) with
      | inl hbefore => exact hwritten.before a hbefore
      | inr hbefore =>
        rw [hwritten.after a (by omega) ha]
        rcases haligned.done (by omega) with hzero | hend
        · exact (houtside a (by omega)).symm
        · exact (houtside a (by omega)).symm

theorem rtwEfuseMapRead_holds {ps : List Packet} {k : ℕ} {e : EfuseHal}
    (hcontent : e.content = encode ps ++ List.replicate k 0xFF)
    (hlen : (encode ps).length + k = efuseRealContentLen) (buf : List UInt8) :
    rtwEfuseMapRead e 0 efuseMapLen buf =
      ⟨{ e with efuseUsedBytes := min ((encode ps).length + 1) efuseRealContentLen - 1 }, true,
        (List.range efuseMapLen).map (replay ps)⟩ := by
  have hsize : e.content.length = efuseRealContentLen := by
    rw [hcontent, List.length_append, List.length_replicate, hlen]
  have hloop := readLoop_packets (fun _ => 0xFF) ps hsize (Nat.zero_le _) hcontent
  rw [Nat.zero_add] at hloop
  unfold rtwEfuseMapRead halReadEfuseWifi
  rw [if_neg (by decide), if_neg (by decide), hloop]
  simp only [Nat.zero_add]
  rfl

theorem rtwEfuseMapRead_data {ps : List Packet} {k : ℕ} {e : EfuseHal}
    (hcontent : e.content = encode ps ++ List.replicate k 0xFF)
    (hlen : (encode ps).length + k = efuseRealContentLen) (buf : List UInt8) :
    (rtwEfuseMapRead e 0 efuseMapLen buf).ret = true ∧
      (rtwEfuseMapRead e 0 efuseMapLen buf).data = (List.range efuseMapLen).map (replay ps) := by
  rw [rtwEfuseMapRead_holds hcontent hlen]
  generalize (List.range efuseMapLen).map (replay ps) = table
  exact ⟨rfl, rfl⟩

def mapOf (ps : List Packet) (i : ℕ) : UInt8 :=
  ((List.range efuseMapLen).map (replay ps)).getD i 0xFF

theorem mapOf_eq (ps : List Packet) {i : ℕ} (hi : i < efuseMapLen) : mapOf ps i = replay ps i := by
  rw [mapOf, List.getD_eq_getElem?_getD, List.getElem?_map, List.getElem?_range hi]
  rfl

def bytesToWrite (r : RegistryPriv) (ps : List Packet) (addr cnts : ℕ) (data : ℕ → UInt8) : ℕ :=
  chkTotalByte (efuseImage r (mapOf ps) addr cnts data) (mapOf ps) addr cnts 0 (addr / 8) 0

theorem rtwEfuseMapWrite_eq {r : RegistryPriv} {ps : List Packet} {k : ℕ} {e : EfuseHal}
    (data : ℕ → UInt8) (hcontent : e.content = encode ps ++ List.replicate k 0xFF)
    (hlen : (encode ps).length + k = efuseRealContentLen) (haddr : addr + cnts ≤ efuseMapLen) :
    rtwEfuseMapWrite program r e addr cnts data =
      if availableEfuseBytes ≤ (encode ps).length + bytesToWrite r ps addr cnts data then
        ({ e with efuseUsedBytes := min ((encode ps).length + 1) efuseRealContentLen - 1 }, false)
      else
        writeLoop program (efuseImage r (mapOf ps) addr cnts data) (mapOf ps) addr cnts 0 (addr / 8)
          { e with efuseUsedBytes := (encode ps).length } := by
  have havail : availableEfuseBytes = 221 := rfl
  have hreal : efuseRealContentLen = 256 := rfl
  unfold rtwEfuseMapWrite
  rw [if_neg (Nat.not_lt.mpr haddr), rtwEfuseMapRead_holds hcontent hlen]
  dsimp only
  rw [if_neg (by decide)]
  have hmap : (fun i => ((List.range efuseMapLen).map (replay ps)).getD i 0xFF) = mapOf ps := rfl
  rw [hmap, ← bytesToWrite]
  cases Decidable.em ((encode ps).length < efuseRealContentLen) with
  | inl hk =>
    have hused : min ((encode ps).length + 1) efuseRealContentLen - 1 = (encode ps).length := by
      omega
    rw [hused]
    cases Decidable.em ((encode ps).length = 0) with
    | inl hzero =>
      have hsize := getCurrentSize_holds (e := { e with efuseUsedBytes := (encode ps).length })
        ⟨hcontent, hlen, .inl rfl⟩
      rw [if_pos hzero, hsize]
    | inr hzero => rw [if_neg hzero]
  | inr hk =>
    have hused : min ((encode ps).length + 1) efuseRealContentLen - 1 = 255 := by omega
    rw [hused, if_neg (by decide : ¬255 = 0)]
    dsimp only
    rw [if_pos (by omega), if_pos (by omega)]

theorem rtwEfuseMapWrite_writes (hprogram : ∀ d, program 0xFF d = d) {r : RegistryPriv}
    {ps : List Packet} {k : ℕ} {e : EfuseHal} (data : ℕ → UInt8)
    (hcontent : e.content = encode ps ++ List.replicate k 0xFF)
    (hlen : (encode ps).length + k = efuseRealContentLen) (haddr : addr + cnts ≤ efuseMapLen)
    (hroom : (encode ps).length + bytesToWrite r ps addr cnts data < availableEfuseBytes) :
    ∃ ps' k', Holds ps' k' (rtwEfuseMapWrite program r e addr cnts data).1 ∧
      (rtwEfuseMapWrite program r e addr cnts data).2 = true ∧
        ∀ a < efuseMapLen, replay ps' a = efuseImage r (mapOf ps) addr cnts data a := by
  rw [rtwEfuseMapWrite_eq data hcontent hlen haddr, if_neg (Nat.not_le.mpr hroom)]
  have houtside (a : ℕ) (ha : ¬(addr ≤ a ∧ a < addr + cnts)) :
      efuseImage r (mapOf ps) addr cnts data a = mapOf ps a := if_neg ha
  refine writeLoop_writes hprogram houtside haddr ⟨hcontent, hlen, .inl rfl⟩
    (Aligned.start addr cnts) ⟨fun a ha => ?_, fun a _ ha => (mapOf_eq ps ha).symm⟩
    (Nat.le_of_lt hroom)
  rw [houtside a fun h => by omega]
  exact (mapOf_eq ps (by omega)).symm

theorem Holds.wellFormed {ps : List Packet} {k : ℕ} {e : EfuseHal} (h : Holds ps k e) :
    WellFormed e.content := by
  refine ⟨?_, ps, k, h.content⟩
  rw [h.content, List.length_append, List.length_replicate, h.length]

def overlaid (m : List UInt8) (addr cnts : ℕ) (data : ℕ → UInt8) : List UInt8 :=
  m.take addr ++ ((List.range cnts).map data ++ m.drop (addr + cnts))

theorem overlaid_map {ps ps' : List Packet} {r : RegistryPriv} (hmask : r.boffefusemask = true)
    (data : ℕ → UInt8) (haddr : addr + cnts ≤ efuseMapLen)
    (h : ∀ a < efuseMapLen, replay ps' a = efuseImage r (mapOf ps) addr cnts data a) :
    (List.range efuseMapLen).map (replay ps') =
      overlaid ((List.range efuseMapLen).map (replay ps)) addr cnts data := by
  have hsize : (overlaid ((List.range efuseMapLen).map (replay ps)) addr cnts data).length =
      efuseMapLen := by
    simp only [overlaid, List.length_append, List.length_take, List.length_drop, List.length_map,
      List.length_range]
    omega
  refine List.ext_getElem (by rw [hsize, List.length_map, List.length_range]) fun a ha ha' => ?_
  have hlt : a < efuseMapLen := hsize ▸ ha'
  rw [List.getElem_map, List.getElem_range, h a hlt, efuseImage]
  simp only [overlaid, List.getElem_append, List.length_take, List.length_map, List.length_range]
  by_cases hbefore : a < addr
  · rw [if_neg (by omega), dif_pos (by omega), List.getElem_take, List.getElem_map,
      List.getElem_range]
    exact mapOf_eq ps hlt
  cases Decidable.em (a < addr + cnts) with
  | inl hin =>
    rw [if_pos (by omega), if_neg (by simp [hmask]), dif_neg (by omega), dif_pos (by omega),
      List.getElem_map, List.getElem_range]
    exact congrArg data (by omega)
  | inr hin =>
    rw [if_neg (by omega), dif_neg (by omega), dif_neg (by omega), List.getElem_drop,
      List.getElem_map, List.getElem_range, mapOf_eq ps hlt]
    exact congrArg (replay ps) (by omega)

theorem map_write_then_read (hprogram : ∀ d, program 0xFF d = d) {r : RegistryPriv}
    (hmask : r.boffefusemask = true) {e e' : EfuseHal} (h : WellFormed e.content)
    {data : ℕ → UInt8} (hwrite : rtwEfuseMapWrite program r e addr cnts data = (e', true))
    (buf : List UInt8) :
    WellFormed e'.content ∧ (rtwEfuseMapRead e' 0 efuseMapLen buf).ret = true ∧
      (rtwEfuseMapRead e' 0 efuseMapLen buf).data =
        overlaid (rtwEfuseMapRead e 0 efuseMapLen buf).data addr cnts data := by
  obtain ⟨hsize, ps, k, hcontent⟩ := h
  have hlen : (encode ps).length + k = efuseRealContentLen := by
    rw [← hsize, hcontent, List.length_append, List.length_replicate]
  have haddr : addr + cnts ≤ efuseMapLen := by
    by_contra hout
    rw [rtwEfuseMapWrite, if_pos (by omega)] at hwrite
    cases hwrite
  have hroom : (encode ps).length + bytesToWrite r ps addr cnts data < availableEfuseBytes := by
    by_contra hfull
    rw [rtwEfuseMapWrite_eq data hcontent hlen haddr, if_pos (by omega)] at hwrite
    cases hwrite
  obtain ⟨ps', k', hholds, -, hreplay⟩ :=
    rtwEfuseMapWrite_writes hprogram data hcontent hlen haddr hroom
  rw [hwrite] at hholds
  have hread := rtwEfuseMapRead_data hholds.content hholds.length buf
  refine ⟨hholds.wellFormed, hread.1, ?_⟩
  rw [hread.2, (rtwEfuseMapRead_data hcontent hlen buf).2]
  exact overlaid_map hmask data haddr hreplay

theorem map_write_then_read_blank :
    let e : EfuseHal := ⟨List.replicate 256 0xFF, 0⟩
    let w := rtwEfuseMapWrite (· &&& ·) ⟨true, fun _ => false⟩ e 5 1 fun _ => 7
    w.2 = true ∧ (rtwEfuseMapRead w.1 0 efuseMapLen []).data =
      overlaid (rtwEfuseMapRead e 0 efuseMapLen []).data 5 1 fun _ => 7 := by
  intro e w
  have hcontent : e.content = encode [] ++ List.replicate 256 0xFF := rfl
  have hroom : (encode []).length + bytesToWrite ⟨true, fun _ => false⟩ [] 5 1 (fun _ => 7) <
      availableEfuseBytes :=
    Nat.lt_of_le_of_lt (Nat.add_le_add_left (chkTotalByte_le ..) _) (by decide)
  have hprogram : ∀ d : UInt8, 0xFF &&& d = d := fun d => by
    rw [UInt8.and_comm]
    exact UInt8.and_neg_one
  obtain ⟨-, -, -, hret, -⟩ := rtwEfuseMapWrite_writes hprogram (fun _ => 7) hcontent
    (by decide) (by decide) hroom
  have hpair (x : EfuseHal × Bool) (h : x.2 = true) : x = (x.1, true) := Prod.ext rfl h
  have hsize : e.content.length = efuseRealContentLen := List.length_replicate
  exact ⟨hret, (map_write_then_read hprogram rfl ⟨hsize, [], 256, hcontent⟩ (hpair _ hret) []).2.2⟩

end Writes

end Efuse
