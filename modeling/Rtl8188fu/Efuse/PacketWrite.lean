import Rtl8188fu.Efuse.CurrentSize

namespace Efuse

def packedWords (wordEn : UInt8) (data : ℕ → UInt8) (is : List ℕ) : List UInt8 :=
  is.flatMap fun i => if wordEnabled wordEn i then [data (2 * i), data (2 * i + 1)] else []

theorem length_packedWords (wordEn : UInt8) (data : ℕ → UInt8) (is : List ℕ) :
    (packedWords wordEn data is).length = is.countP (wordEnabled wordEn) * 2 := by
  induction is with
  | nil => rfl
  | cons i is ih =>
    rw [packedWords, List.flatMap_cons, List.length_append, ← packedWords, ih]
    cases Decidable.em (wordEnabled wordEn i = true) with
    | inl hi =>
      rw [if_pos hi, List.countP_cons_of_pos hi]
      simp only [List.length_cons, List.length_nil]
      omega
    | inr hi =>
      rw [if_neg hi, List.countP_cons_of_neg hi]
      exact Nat.zero_add _

theorem overlayWords_packed (wordEn : UInt8) (data : ℕ → UInt8) (n s base : ℕ) (tbl : Table)
    (a : ℕ) :
    overlayWords wordEn (List.range' s n) (base + 2 * s)
        (packedWords wordEn data (List.range' s n)) tbl a =
      if base + 2 * s ≤ a ∧ a < base + 2 * (s + n) ∧ wordEnabled wordEn ((a - base) / 2) = true then
        data (a - base)
      else tbl a := by
  induction n generalizing s tbl with
  | zero =>
    rw [if_neg (by omega)]
    rfl
  | succ n ih =>
    rw [List.range'_succ, packedWords, List.flatMap_cons, ← packedWords]
    unfold overlayWords
    have hnext : base + 2 * s + 2 = base + 2 * (s + 1) := by omega
    cases Decidable.em (wordEnabled wordEn s = true) with
    | inl hs =>
      rw [if_pos hs, if_pos hs, hnext]
      change overlayWords wordEn _ _ (packedWords wordEn data (List.range' (s + 1) n))
        (Function.update (Function.update tbl (base + 2 * s) (data (2 * s))) (base + 2 * s + 1)
          (data (2 * s + 1))) a = _
      rw [ih]
      rcases Nat.lt_trichotomy a (base + 2 * s) with hlt | rfl | hgt
      · rw [if_neg (by omega), if_neg (by omega), Function.update_of_ne (by omega),
          Function.update_of_ne (by omega)]
      · have hsub : base + 2 * s - base = 2 * s := by omega
        have hhalf : 2 * s / 2 = s := by omega
        rw [if_neg (by omega), Function.update_of_ne (by omega), Function.update_self, hsub, hhalf,
          if_pos ⟨Nat.le_refl _, by omega, hs⟩]
      · cases Decidable.em (a = base + 2 * s + 1) with
        | inl hodd =>
          subst hodd
          have hsub : base + 2 * s + 1 - base = 2 * s + 1 := by omega
          have hhalf : (2 * s + 1) / 2 = s := by omega
          rw [if_neg (by omega), Function.update_self, hsub, hhalf,
            if_pos ⟨by omega, by omega, hs⟩]
        | inr hodd =>
          rw [Function.update_of_ne hodd, Function.update_of_ne (by omega)]
          refine if_congr (and_congr ?_ (and_congr ?_ Iff.rfl)) rfl rfl <;> omega
    | inr hs =>
      rw [if_neg hs, if_neg hs, List.nil_append, hnext, ih]
      refine if_congr ?_ rfl rfl
      constructor
      · rintro ⟨hle, hlt, hen⟩
        exact ⟨by omega, by omega, hen⟩
      · rintro ⟨hle, hlt, hen⟩
        refine ⟨?_, by omega, hen⟩
        by_contra hlow
        have hhalf : (a - base) / 2 = s := by omega
        rw [hhalf] at hen
        exact hs hen

section Appending

variable {program : UInt8 → UInt8 → UInt8}

def patch (content : List UInt8) (addr : ℕ) (bs : List UInt8) : List UInt8 :=
  content.take addr ++ (bs ++ content.drop (addr + bs.length))

structure Erased (content : List UInt8) (addr n : ℕ) : Prop where
  inside : addr + n ≤ content.length
  blank : ∀ i < n, oneByteRead content (addr + i) = 0xFF

theorem patch_nil (content : List UInt8) (addr : ℕ) : patch content addr [] = content :=
  List.take_append_drop addr content

theorem length_patch {content : List UInt8} {addr : ℕ} {bs : List UInt8}
    (h : addr + bs.length ≤ content.length) : (patch content addr bs).length = content.length := by
  simp only [patch, List.length_append, List.length_take, List.length_drop]
  omega

theorem oneByteRead_patch {content : List UInt8} {addr : ℕ} {bs : List UInt8}
    (h : addr + bs.length ≤ content.length) (a : ℕ) :
    oneByteRead (patch content addr bs) a =
      if addr ≤ a ∧ a < addr + bs.length then bs.getD (a - addr) 0xFF
      else oneByteRead content a := by
  have htake : (content.take addr).length = addr := by
    rw [List.length_take]
    omega
  simp only [oneByteRead, patch, List.getD_eq_getElem?_getD]
  rcases Nat.lt_or_ge a addr with hlt | hge
  · rw [if_neg (by omega), List.getElem?_append_left (by omega), List.getElem?_take_of_lt hlt]
  · rw [List.getElem?_append_right (by omega), htake]
    rcases Nat.lt_or_ge a (addr + bs.length) with hin | hout
    · rw [if_pos ⟨hge, hin⟩, List.getElem?_append_left (by omega)]
    · rw [if_neg (by omega), List.getElem?_append_right (by omega), List.getElem?_drop]
      have hat : addr + bs.length + (a - addr - bs.length) = a := by omega
      rw [hat]

theorem oneByteRead_patch_head {content : List UInt8} {addr : ℕ} (d : UInt8) (bs : List UInt8)
    (h : addr + (d :: bs).length ≤ content.length) :
    oneByteRead (patch content addr (d :: bs)) addr = d := by
  rw [oneByteRead_patch h, if_pos ⟨Nat.le_refl _, by simp⟩, Nat.sub_self]
  rfl

theorem patch_append {content : List UInt8} {addr : ℕ} (as bs : List UInt8)
    (h : addr + as.length ≤ content.length) :
    patch (patch content addr as) (addr + as.length) bs = patch content addr (as ++ bs) := by
  have htake : (content.take addr).length = addr := by
    rw [List.length_take]
    omega
  have hhead : (content.take addr ++ as).length = addr + as.length := by
    rw [List.length_append, htake]
  simp only [patch]
  rw [← List.append_assoc (content.take addr) as, ← hhead, List.take_left,
    ← List.drop_drop, List.drop_left, List.drop_drop, hhead, List.append_assoc, List.append_assoc,
    List.length_append, Nat.add_assoc]

theorem Erased.mono {content : List UInt8} {addr m n : ℕ} (h : Erased content addr n)
    (hle : m ≤ n) : Erased content addr m :=
  ⟨by have := h.inside; omega, fun i hi => h.blank i (by omega)⟩

theorem Erased.patch {content : List UInt8} {addr n : ℕ} (as : List UInt8)
    (h : Erased content addr (as.length + n)) :
    Erased (patch content addr as) (addr + as.length) n := by
  have hin := h.inside
  refine ⟨by rw [length_patch (by omega)]; omega, fun i hi => ?_⟩
  rw [oneByteRead_patch (by omega), if_neg (by omega), Nat.add_assoc]
  exact h.blank (as.length + i) (by omega)

theorem oneByteWrite_erased (hprogram : ∀ d, program 0xFF d = d) {content : List UInt8}
    {addr : ℕ} (h : Erased content addr 1) (d : UInt8) :
    oneByteWrite program content addr d = patch content addr [d] := by
  have hin := h.inside
  have hlt : addr < content.length := by omega
  have hblank : content[addr] = 0xFF := by
    have hread := h.blank 0 Nat.one_pos
    rwa [oneByteRead, Nat.add_zero, List.getD_eq_getElem?_getD, List.getElem?_eq_getElem hlt] at hread
  rw [oneByteWrite, List.modify_eq_take_cons_drop hlt, hblank, hprogram]
  rfl

theorem writeHeader_erased (hprogram : ∀ d, program 0xFF d = d) {content : List UInt8}
    {addr : ℕ} (h : Erased content addr 1) {pgHeader : UInt8} (hne : pgHeader ≠ 0xFF) (left : ℕ) :
    writeHeader program pgHeader addr left content =
      (patch content addr [pgHeader], some left) := by
  rw [writeHeader, oneByteWrite_erased hprogram h]
  unfold retryHeader
  rw [oneByteRead_patch_head pgHeader [] h.inside]
  exact if_neg (by simp [hne])

theorem writeWords_erased (hprogram : ∀ d, program 0xFF d = d) (wordEn : UInt8)
    (data : ℕ → UInt8) (is : List ℕ) {content : List UInt8} {addr : ℕ}
    (h : Erased content addr (packedWords wordEn data is).length) (badworden : UInt8) :
    writeWords program wordEn data is addr content badworden =
      (patch content addr (packedWords wordEn data is), badworden) := by
  induction is generalizing content addr with
  | nil =>
    unfold writeWords
    rw [packedWords, List.flatMap_nil, patch_nil]
  | cons i is ih =>
    unfold writeWords
    cases Decidable.em (wordEnabled wordEn i = true) with
    | inl hi =>
      have hpacked : packedWords wordEn data (i :: is) =
          [data (2 * i), data (2 * i + 1)] ++ packedWords wordEn data is := by
        rw [packedWords, List.flatMap_cons, if_pos hi]
        rfl
      rw [hpacked] at h ⊢
      have hin := h.inside
      simp only [List.length_append, List.length_cons, List.length_nil] at h hin
      have hfirst := oneByteWrite_erased hprogram (h.mono (by omega)) (data (2 * i))
      have hnext : Erased (patch content addr [data (2 * i)]) (addr + 1) 1 :=
        Erased.patch [data (2 * i)] (h.mono (by simp only [List.length_singleton]; omega))
      have hsecond := oneByteWrite_erased hprogram hnext (data (2 * i + 1))
      have hboth : patch (patch content addr [data (2 * i)]) (addr + 1) [data (2 * i + 1)] =
          patch content addr [data (2 * i), data (2 * i + 1)] :=
        patch_append [data (2 * i)] [data (2 * i + 1)] (by simp only [List.length_singleton]; omega)
      rw [hboth] at hsecond
      have hone : oneByteRead (patch content addr [data (2 * i), data (2 * i + 1)]) addr =
          data (2 * i) :=
        oneByteRead_patch_head _ _ (by simp only [List.length_cons, List.length_nil]; omega)
      have htwo : oneByteRead (patch content addr [data (2 * i), data (2 * i + 1)]) (addr + 1) =
          data (2 * i + 1) := by
        rw [oneByteRead_patch (by simp only [List.length_cons, List.length_nil]; omega),
          if_pos (by simp only [List.length_cons, List.length_nil]; omega), Nat.add_sub_cancel_left]
        rfl
      have hrest := ih (Erased.patch [data (2 * i), data (2 * i + 1)]
        (h.mono (by simp only [List.length_cons, List.length_nil]; omega)))
      simp only [List.length_cons, List.length_nil, Nat.zero_add, Nat.reduceAdd] at hrest
      rw [if_pos hi]
      dsimp only
      rw [hfirst, hsecond, hone, htwo, if_neg (by simp), hrest]
      exact congrArg (·, badworden) (patch_append [data (2 * i), data (2 * i + 1)] _
        (by simp only [List.length_cons, List.length_nil]; omega))
    | inr hi =>
      have hpacked : packedWords wordEn data (i :: is) = packedWords wordEn data is := by
        rw [packedWords, List.flatMap_cons, if_neg hi]
        rfl
      rw [hpacked] at h ⊢
      rw [if_neg hi, ih h]

def pgHeaders (p : PgPkt) : UInt8 × Option UInt8 :=
  if efuseMaxSectionBase ≤ p.offset.toNat then (pgHeader2Byte p, some (pgExtHeader p))
  else (pgHeader1Byte p, none)

structure Headed (p : PgPkt) : Prop where
  header : (pgHeaders p).1 ≠ 0xFF
  ext : (pgHeaders p).2.isSome = extHeader (pgHeaders p).1
  extNe : ∀ e ∈ (pgHeaders p).2, e ≠ 0xFF ∧ e &&& 0x0F ≠ 0x0F
  wordEn : (pgHeaders p).2.getD (pgHeaders p).1 &&& 0x0F = p.wordEn
  offset : (match (pgHeaders p).2 with
    | none => ((pgHeaders p).1 >>> 4) &&& 0x0F
    | some e => hdrOffset20 (pgHeaders p).1 ||| ((e &&& 0xF0) >>> 1)) = p.offset

instance (p : PgPkt) : Decidable (Headed p) :=
  have : Decidable (∀ e ∈ (pgHeaders p).2, e ≠ 0xFF ∧ e &&& 0x0F ≠ 0x0F) :=
    Option.decidableForallMem ..
  decidable_of_iff (_ ∧ _ ∧ _ ∧ _ ∧ _)
    ⟨fun h => ⟨h.1, h.2.1, h.2.2.1, h.2.2.2.1, h.2.2.2.2⟩,
      fun h => ⟨h.header, h.ext, h.extNe, h.wordEn, h.offset⟩⟩

theorem headed (p : PgPkt) (hoffset : p.offset.toNat < efuseMaxSection)
    (hwords : p.wordEn.toNat < 0x0F) : Headed p := by
  have hall : ∀ (o : Fin 64) (w : Fin 15),
      Headed ⟨UInt8.ofNat o, UInt8.ofNat w, fun _ => 0⟩ := by decide +kernel
  have hp := hall ⟨_, hoffset⟩ ⟨_, hwords⟩
  simp only [UInt8.ofNat_toNat] at hp
  exact ⟨hp.header, hp.ext, hp.extNe, hp.wordEn, hp.offset⟩

def pgPacket (p : PgPkt) (h : Headed p) : Packet where
  header := (pgHeaders p).1
  ext := (pgHeaders p).2
  data := packedWords p.wordEn p.data (List.range 4)
  complete := ⟨h.header, h.ext, fun e he => (h.extNe e he).1, by
    rw [length_packedWords, h.wordEn]
    rfl⟩

theorem pgPacket_apply (p : PgPkt) (h : Headed p) (hoffset : p.offset.toNat < efuseMaxSection)
    (tbl : Table) (a : ℕ) :
    (pgPacket p h).apply tbl a =
      if a / 8 = p.offset.toNat ∧ wordEnabled p.wordEn (a % 8 / 2) = true then p.data (a % 8)
      else tbl a := by
  have hoff : (pgPacket p h).offset = p.offset := h.offset
  have hwords : (pgPacket p h).wordEn = p.wordEn := h.wordEn
  have hpacked := overlayWords_packed p.wordEn p.data 4 0 (p.offset.toNat * 8) tbl a
  rw [Nat.mul_zero, Nat.add_zero, Nat.zero_add] at hpacked
  rw [Packet.apply, hoff, hwords, if_pos hoffset, List.range_eq_range']
  refine hpacked.trans ?_
  cases Decidable.em (a / 8 = p.offset.toNat) with
  | inl hin =>
    have hsub : a - p.offset.toNat * 8 = a % 8 := by omega
    rw [hsub]
    refine if_congr ⟨fun hw => ⟨hin, hw.2.2⟩, fun hw => ⟨by omega, by omega, hw.2⟩⟩ rfl rfl
  | inr hin => rw [if_neg fun hw => hin (by omega), if_neg fun hw => hin hw.1]

theorem pgPacketWriteHeader_erased (hprogram : ∀ d, program 0xFF d = d) {p : PgPkt}
    (h : Headed p) {content : List UInt8} {addr : ℕ}
    (herased : Erased content addr (1 + (pgHeaders p).2.toList.length))
    (hstart : addr < availableEfuseBytes) :
    halEfusePgPacketWriteHeader program p content addr =
      (patch content addr ((pgHeaders p).1 :: (pgHeaders p).2.toList),
        some (addr + (pgHeaders p).2.toList.length)) := by
  obtain ⟨hheader, -, hext, -, -⟩ := h
  unfold halEfusePgPacketWriteHeader
  unfold pgHeaders at hheader hext herased ⊢
  split
  · rename_i hlong
    rw [if_pos hlong] at hheader hext herased
    simp only [Option.toList_some, List.length_singleton] at herased ⊢
    obtain ⟨hne, hwords⟩ := hext _ rfl
    have hin := herased.inside
    have hfirst := writeHeader_erased hprogram (herased.mono (by omega)) hheader
      (efuseRepeatThreshold + 1)
    have hsecond := writeHeader_erased hprogram
      (Erased.patch [pgHeader2Byte p] herased) hne (efuseRepeatThreshold + 1)
    rw [List.length_singleton] at hsecond
    unfold halEfusePgPacketWrite2ByteHeader
    rw [if_neg (by omega)]
    unfold write2ByteLoop
    rw [if_pos hstart, hfirst]
    dsimp only
    rw [hsecond]
    dsimp only
    rw [if_neg hwords]
    exact congrArg (·, some (addr + 1)) (patch_append [pgHeader2Byte p] [pgExtHeader p]
      (by simp only [List.length_singleton]; omega))
  · rename_i hshort
    rw [if_neg hshort] at hheader herased
    simp only [Option.toList_none, List.length_nil, Nat.add_zero] at herased ⊢
    unfold halEfusePgPacketWrite1ByteHeader
    rw [writeHeader_erased hprogram herased hheader]
    rfl

theorem length_pgPacket (p : PgPkt) (h : Headed p) :
    (pgPacket p h).bytes.length = 1 + (pgHeaders p).2.toList.length +
      (packedWords p.wordEn p.data (List.range 4)).length := by
  change ((pgHeaders p).1 :: ((pgHeaders p).2.toList ++
    packedWords p.wordEn p.data (List.range 4))).length = _
  rw [List.length_cons, List.length_append]
  omega

theorem encode_concat (ps : List Packet) (p : Packet) :
    encode (ps ++ [p]) = encode ps ++ p.bytes := by
  rw [encode, List.flatMap_append, List.flatMap_singleton]
  rfl

theorem pgPacket_bytes_eq (p : PgPkt) (h : Headed p) :
    (pgPacket p h).bytes = ((pgHeaders p).1 :: (pgHeaders p).2.toList) ++
      packedWords p.wordEn p.data (List.range 4) := rfl

theorem pgPacketWrite_erased (hprogram : ∀ d, program 0xFF d = d) {e : EfuseHal} {addr : ℕ}
    (hsize : halEfuseGetCurrentSizeWifi e = ({ e with efuseUsedBytes := addr }, addr))
    (depth : ℕ) {offset wordEn : UInt8} {pData : ℕ → UInt8}
    (h : Headed (halEfuseConstructPGPkt offset wordEn pData)) (hstart : addr < availableEfuseBytes)
    (herased : Erased e.content addr (pgPacket _ h).bytes.length) :
    halEfusePgPacketWrite program (depth + 1) e offset wordEn pData =
      (⟨patch e.content addr (pgPacket _ h).bytes, addr⟩, true) := by
  have hlen := length_pgPacket _ h
  have hin := herased.inside
  have havail : availableEfuseBytes = 221 := rfl
  have hreal : efuseRealContentLen = 256 := rfl
  have hcheck : halEfusePartialWriteCheck { e with efuseUsedBytes := addr } = some addr := by
    have hmod : addr % efuseRealContentLen = addr := Nat.mod_eq_of_lt (by omega)
    have hread : oneByteRead e.content addr = 0xFF := herased.blank 0 (by omega)
    unfold halEfusePartialWriteCheck
    dsimp only
    rw [hmod, if_neg (by omega), if_neg (not_not.mpr hread)]
  have hheader := pgPacketWriteHeader_erased hprogram h (herased.mono (by omega)) hstart
  have hafter : Erased (patch e.content addr
      ((pgHeaders (halEfuseConstructPGPkt offset wordEn pData)).1 ::
        (pgHeaders (halEfuseConstructPGPkt offset wordEn pData)).2.toList))
      (addr + (1 + (pgHeaders (halEfuseConstructPGPkt offset wordEn pData)).2.toList.length))
      (packedWords wordEn (halEfuseConstructPGPkt offset wordEn pData).data
        (List.range 4)).length := by
    rw [hlen, Nat.add_comm 1, ← List.length_cons] at herased
    rw [Nat.add_comm 1, ← List.length_cons]
    exact herased.patch _
  have hdata := writeWords_erased hprogram wordEn _ _ hafter 0x0F
  unfold halEfusePgPacketWrite
  rw [hsize]
  dsimp only
  rw [if_neg (by omega), hcheck]
  dsimp only
  rw [hheader]
  dsimp only
  rw [Nat.add_comm 1, ← Nat.add_assoc] at hdata
  rw [halEfuseWordEnableDataWrite, hdata]
  dsimp only
  rw [if_pos rfl, pgPacket_bytes_eq, ← patch_append, List.length_cons, ← Nat.add_assoc]
  · rfl
  · rw [List.length_cons]
    omega

theorem pgPacketWrite_appends (hprogram : ∀ d, program 0xFF d = d) {ps : List Packet} {k : ℕ}
    {e : EfuseHal} (hholds : Holds ps k e) (depth : ℕ) {offset wordEn : UInt8}
    {pData : ℕ → UInt8} (h : Headed (halEfuseConstructPGPkt offset wordEn pData))
    (hroom : (encode ps).length + (pgPacket _ h).bytes.length ≤ availableEfuseBytes) :
    halEfusePgPacketWrite program (depth + 1) e offset wordEn pData =
      (⟨encode (ps ++ [pgPacket _ h]) ++
          List.replicate (k - (pgPacket _ h).bytes.length) 0xFF, (encode ps).length⟩, true) := by
  have htotal := hholds.length
  have havail : availableEfuseBytes = 221 := rfl
  have hreal : efuseRealContentLen = 256 := rfl
  have hpos : 0 < (pgPacket _ h).bytes.length := Nat.succ_pos _
  have herased : Erased e.content (encode ps).length (pgPacket _ h).bytes.length := by
    refine ⟨?_, fun i hi => ?_⟩
    · rw [hholds.content, List.length_append, List.length_replicate]
      omega
    · rw [oneByteRead_add, hholds.content, List.drop_left, List.getD_eq_getElem?_getD,
        List.getElem?_replicate, if_pos (by omega), Option.getD_some]
  have hpatch : patch e.content (encode ps).length (pgPacket _ h).bytes =
      encode (ps ++ [pgPacket _ h]) ++
        List.replicate (k - (pgPacket _ h).bytes.length) 0xFF := by
    rw [patch, hholds.content, List.take_left, ← List.drop_drop, List.drop_left,
      List.drop_replicate, encode_concat, List.append_assoc]
  rw [pgPacketWrite_erased hprogram (getCurrentSize_holds hholds) depth h (by omega) herased,
    hpatch]

end Appending

end Efuse
