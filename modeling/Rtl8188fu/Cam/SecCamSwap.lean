import Mathlib.Data.Finset.Card
import Mathlib.Logic.Equiv.Basic
import Mathlib.Order.Interval.Finset.Nat
import Rtl8188fu.Cam.SecCam

namespace Cam

def rtwMiUpdateApBmcCamid {n : ℕ} (ifaceBmc : Fin n → ℕ) (camidA camidB : ℕ) : Fin n → ℕ :=
  fun k =>
    if ifaceBmc k ≠ invalidSecMacCamId then
      if ifaceBmc k = camidA then camidB
      else if ifaceBmc k = camidB then camidA
      else ifaceBmc k
    else ifaceBmc k

namespace SecCam

def rtwCamidSet (c : SecCam) (id : ℕ) : SecCam :=
  if id < camNum then { c with used := Bitmap.insert c.used id } else c

def release (c : SecCam) (id : ℕ) : SecCam := (c.rtwCamidFree id).clearCamEntry id

def install (c : SecCam) (id : ℕ) (e : SecCamEnt) : SecCam :=
  (c.writeCam id e.ctrl e.mac e.key).rtwCamidSet id

def swapSlots (c : SecCam) (camIdA camIdB : ℕ) : SecCam :=
  let camAUsed := rtwSecCamidIsUsed c.used camIdA
  let camBUsed := rtwSecCamidIsUsed c.used camIdB
  let cacheA := c.cache camIdA
  let cacheB := c.cache camIdB
  let c := if camAUsed then c.release camIdA else c
  let c := if camBUsed then c.release camIdB else c
  let c := if camAUsed then c.install camIdB cacheA else c
  if camBUsed then c.install camIdA cacheB else c

def rtwGetEmptyCamEntry (c : SecCam) (startCamid : ℕ) : Option ℕ :=
  (List.range' startCamid (camNum - startCamid)).find? fun i => !rtwSecCamidIsUsed c.used i

end SecCam

structure CamDev (n : ℕ) where
  cam : SecCam
  ifaceBmc : Fin n → ℕ

namespace CamDev

variable {n : ℕ}

def rtwSecCamSwap (d : CamDev n) (camIdA camIdB : ℕ) : CamDev n :=
  if camIdA = camIdB then d
  else ⟨d.cam.swapSlots camIdA camIdB, rtwMiUpdateApBmcCamid d.ifaceBmc camIdA camIdB⟩

def cleanDk (d : CamDev n) (i : ℕ) : CamDev n :=
  if rtwSecCamidIsUsed d.cam.used i then
    match d.cam.rtwGetEmptyCamEntry 4 with
    | none => d
    | some eptCamId => if 0 < eptCamId then d.rtwSecCamSwap i eptCamId else d
  else d

def rtwCleanDkSection (d : CamDev n) : CamDev n := (List.range 4).foldl cleanDk d

end CamDev

namespace SecCam

def InUse (c : SecCam) (i : ℕ) : Prop := Bitmap.isSet c.used i = true

instance (c : SecCam) (i : ℕ) : Decidable (c.InUse i) := inferInstanceAs (Decidable (_ = _))

def KeySized (c : SecCam) : Prop := ∀ i, (c.cache i).key.length = 16

def Single (c : SecCam) (i : ℕ) : Prop := c.InUse i → (c.cache i).ctrl.getLsbD 9 = false

structure Exchanged (c c' : SecCam) (a b : ℕ) : Prop where
  inUse : ∀ i, c'.InUse i ↔ c.InUse (Equiv.swap a b i)
  moved : ∀ i, c'.InUse i → c'.cache i = c.cache (Equiv.swap a b i)
  vacated : ∀ i, c.InUse i → ¬ c'.InUse i → c'.cache i = SecCamEnt.cleared
  others : ∀ i, i ≠ a → i ≠ b → c'.cache i = c.cache i
  bothFree : ¬ c.InUse a → ¬ c.InUse b → c' = c

def keys (c : SecCam) : List SecCamEnt :=
  ((List.range camNum).filter fun i => decide (c.InUse i)).map c.cache

def dkInUse (c : SecCam) : Finset ℕ := (Finset.range 4).filter c.InUse

def spareSlots (c : SecCam) : Finset ℕ := (Finset.Ico 4 camNum).filter fun i => ¬ c.InUse i

variable {c : SecCam} {a b i : ℕ}

theorem release_inUse (ha : a < camNum) : (c.release a).InUse i ↔ c.InUse i ∧ i ≠ a := by
  rw [release, rtwCamidFree, if_pos ha]
  exact Bitmap.isSet_erase c.used a i

theorem release_cache (a : ℕ) : (c.release a).cache = Function.update c.cache a .cleared := by
  rw [release, rtwCamidFree]
  split <;> rfl

theorem install_inUse (ha : a < camNum) (e : SecCamEnt) :
    (c.install a e).InUse i ↔ c.InUse i ∨ i = a := by
  have hwidth : a < 32 := ha.trans (by decide)
  rw [install, rtwCamidSet, if_pos ha]
  change Bitmap.isSet (Bitmap.insert (c.writeCam a e.ctrl e.mac e.key).used a) i = true ↔ _
  rw [writeCam_used]
  exact Bitmap.isSet_insert c.used hwidth i

theorem install_cache {e : SecCamEnt} (a : ℕ) (hsingle : e.ctrl.getLsbD 9 = false)
    (hkey : e.key.length = 16) : (c.install a e).cache = Function.update c.cache a e := by
  have hkept : e.key.take 16 = e.key := List.take_of_length_le (Nat.le_of_eq hkey)
  rw [install, rtwCamidSet, writeCam_single c a e.mac e.key hsingle, writeCamCache, hkept]
  split <;> rfl

theorem isUsed_decide (ha : a < camNum) : rtwSecCamidIsUsed c.used a = decide (c.InUse a) := by
  rw [isUsed_iff ha]
  exact Bool.decide_eq_true.symm

theorem swapSlots_free (ha : a < camNum) (hb : b < camNum) (hua : ¬ c.InUse a)
    (hub : ¬ c.InUse b) : c.swapSlots a b = c := by
  simp only [swapSlots, isUsed_decide ha, isUsed_decide hb, hua, hub, decide_false,
    Bool.false_eq_true, if_false]

theorem swapSlots_first (ha : a < camNum) (hb : b < camNum) (hua : c.InUse a)
    (hub : ¬ c.InUse b) : c.swapSlots a b = (c.release a).install b (c.cache a) := by
  simp only [swapSlots, isUsed_decide ha, isUsed_decide hb, hua, hub, decide_false, decide_true,
    Bool.false_eq_true, if_false, if_true]

theorem swapSlots_second (ha : a < camNum) (hb : b < camNum) (hua : ¬ c.InUse a)
    (hub : c.InUse b) : c.swapSlots a b = (c.release b).install a (c.cache b) := by
  simp only [swapSlots, isUsed_decide ha, isUsed_decide hb, hua, hub, decide_false, decide_true,
    Bool.false_eq_true, if_false, if_true]

theorem swapSlots_both (ha : a < camNum) (hb : b < camNum) (hua : c.InUse a)
    (hub : c.InUse b) : c.swapSlots a b =
      (((c.release a).release b).install b (c.cache a)).install a (c.cache b) := by
  simp only [swapSlots, isUsed_decide ha, isUsed_decide hb, hua, hub, decide_true, if_true]

theorem inUse_swap (h : c.InUse a ↔ c.InUse b) (i : ℕ) :
    c.InUse i ↔ c.InUse (Equiv.swap a b i) := by
  cases Decidable.em (i = a) with
  | inl heq => rw [heq, Equiv.swap_apply_left, h]
  | inr hna =>
    cases Decidable.em (i = b) with
    | inl heq => rw [heq, Equiv.swap_apply_right, h]
    | inr hnb => rw [Equiv.swap_apply_of_ne_of_ne hna hnb]

theorem exchanged_free (hua : ¬ c.InUse a) (hub : ¬ c.InUse b) : Exchanged c c a b := by
  have hswap (i : ℕ) : c.InUse i → Equiv.swap a b i = i := fun h =>
    Equiv.swap_apply_of_ne_of_ne (fun heq => hua (heq ▸ h)) (fun heq => hub (heq ▸ h))
  constructor
  · exact inUse_swap (iff_of_false hua hub)
  · exact fun i hi => by rw [hswap i hi]
  · exact fun i hi hfree => absurd hi hfree
  · exact fun _ _ _ => rfl
  · exact fun _ _ => rfl

theorem exchanged_move (hab : a ≠ b) (ha : a < camNum) (hb : b < camNum) (hkey : c.KeySized)
    (hsingle : c.Single a) (hua : c.InUse a) (hub : ¬ c.InUse b) :
    Exchanged c ((c.release a).install b (c.cache a)) a b := by
  have hcache : ((c.release a).install b (c.cache a)).cache =
      Function.update (Function.update c.cache a .cleared) b (c.cache a) := by
    rw [install_cache b (hsingle hua) (hkey a), release_cache]
  have huse (i : ℕ) : ((c.release a).install b (c.cache a)).InUse i ↔ c.InUse i ∧ i ≠ a ∨ i = b := by
    rw [install_inUse hb, release_inUse ha]
  constructor
  · intro i
    rw [huse]
    cases Decidable.em (i = a) with
    | inl heq => rw [heq, Equiv.swap_apply_left]; simp [hab, hub]
    | inr hna =>
      cases Decidable.em (i = b) with
      | inl heq => rw [heq, Equiv.swap_apply_right]; simp [hua]
      | inr hnb => rw [Equiv.swap_apply_of_ne_of_ne hna hnb]; simp [hna, hnb]
  · intro i hi
    rw [hcache]
    rcases (huse i).mp hi with ⟨hold, hna⟩ | rfl
    · have hnb : i ≠ b := fun heq => hub (heq ▸ hold)
      rw [Function.update_of_ne hnb, Function.update_of_ne hna,
        Equiv.swap_apply_of_ne_of_ne hna hnb]
    · rw [Function.update_self, Equiv.swap_apply_right]
  · intro i hold hfree
    have hia : i = a := by
      by_contra hna
      exact hfree ((huse i).mpr (.inl ⟨hold, hna⟩))
    rw [hcache, hia, Function.update_of_ne hab, Function.update_self]
  · intro i hna hnb
    rw [hcache, Function.update_of_ne hnb, Function.update_of_ne hna]
  · exact fun hfree => absurd hua hfree

theorem Exchanged.symm {c' : SecCam} (h : Exchanged c c' b a) : Exchanged c c' a b := by
  constructor
  · intro i
    rw [Equiv.swap_comm]
    exact h.inUse i
  · intro i
    rw [Equiv.swap_comm]
    exact h.moved i
  · exact h.vacated
  · exact fun i hna hnb => h.others i hnb hna
  · exact fun hfa hfb => h.bothFree hfb hfa

theorem exchanged_both (hab : a ≠ b) (ha : a < camNum) (hb : b < camNum) (hkey : c.KeySized)
    (hsa : c.Single a) (hsb : c.Single b) (hua : c.InUse a) (hub : c.InUse b) :
    Exchanged c ((((c.release a).release b).install b (c.cache a)).install a (c.cache b)) a b := by
  have hcache : ((((c.release a).release b).install b (c.cache a)).install a (c.cache b)).cache =
      Function.update (Function.update (Function.update (Function.update c.cache a .cleared) b
        .cleared) b (c.cache a)) a (c.cache b) := by
    rw [install_cache a (hsb hub) (hkey b), install_cache b (hsa hua) (hkey a), release_cache,
      release_cache]
  have huse (i : ℕ) :
      ((((c.release a).release b).install b (c.cache a)).install a (c.cache b)).InUse i ↔
        c.InUse i := by
    rw [install_inUse ha, install_inUse hb, release_inUse hb, release_inUse ha]
    constructor
    · rintro ((⟨⟨hold, -⟩, -⟩ | rfl) | rfl)
      · exact hold
      · exact hub
      · exact hua
    · intro hold
      cases Decidable.em (i = a) with
      | inl heq => exact .inr heq
      | inr hna =>
        cases Decidable.em (i = b) with
        | inl heq => exact .inl (.inr heq)
        | inr hnb => exact .inl (.inl ⟨⟨hold, hna⟩, hnb⟩)
  constructor
  · exact fun i => (huse i).trans (inUse_swap (iff_of_true hua hub) i)
  · intro i _
    rw [hcache]
    cases Decidable.em (i = a) with
    | inl heq => rw [heq, Function.update_self, Equiv.swap_apply_left]
    | inr hna =>
      rw [Function.update_of_ne hna]
      cases Decidable.em (i = b) with
      | inl heq => rw [heq, Function.update_self, Equiv.swap_apply_right]
      | inr hnb =>
        rw [Function.update_of_ne hnb, Function.update_of_ne hnb, Function.update_of_ne hna,
          Equiv.swap_apply_of_ne_of_ne hna hnb]
  · exact fun i hold hfree => absurd ((huse i).mpr hold) hfree
  · intro i hna hnb
    rw [hcache, Function.update_of_ne hna, Function.update_of_ne hnb, Function.update_of_ne hnb,
      Function.update_of_ne hna]
  · exact fun hfree => absurd hua hfree

theorem swapSlots_exchanged (hab : a ≠ b) (ha : a < camNum) (hb : b < camNum)
    (hkey : c.KeySized) (hsa : c.Single a) (hsb : c.Single b) :
    Exchanged c (c.swapSlots a b) a b := by
  cases Decidable.em (c.InUse a) with
  | inl hua =>
    cases Decidable.em (c.InUse b) with
    | inl hub =>
      rw [swapSlots_both ha hb hua hub]
      exact exchanged_both hab ha hb hkey hsa hsb hua hub
    | inr hub =>
      rw [swapSlots_first ha hb hua hub]
      exact exchanged_move hab ha hb hkey hsa hua hub
  | inr hua =>
    cases Decidable.em (c.InUse b) with
    | inl hub =>
      rw [swapSlots_second ha hb hua hub]
      exact (exchanged_move hab.symm hb ha hkey hsb hub hua).symm
    | inr hub =>
      rw [swapSlots_free ha hb hua hub]
      exact exchanged_free hua hub

theorem Exchanged.refl (c : SecCam) (a : ℕ) : Exchanged c c a a := by
  constructor
  · exact fun i => by rw [Equiv.swap_self, Equiv.refl_apply]
  · exact fun i _ => by rw [Equiv.swap_self, Equiv.refl_apply]
  · exact fun i hold hfree => absurd hold hfree
  · exact fun _ _ _ => rfl
  · exact fun _ _ => rfl

theorem range_map_swap_perm {n : ℕ} (ha : a < n) (hb : b < n) :
    ((List.range n).map (Equiv.swap a b)).Perm (List.range n) := by
  refine (List.perm_ext_iff_of_nodup ?_ List.nodup_range).mpr fun i => ?_
  · exact (List.nodup_map_iff (Equiv.swap a b).injective).mpr List.nodup_range
  · have hkept (j : ℕ) (hj : j < n) : Equiv.swap a b j < n := by
      rw [Equiv.swap_apply_def]
      split
      · exact hb
      · split
        · exact ha
        · exact hj
    simp only [List.mem_map, List.mem_range]
    constructor
    · rintro ⟨j, hj, rfl⟩
      exact hkept j hj
    · exact fun hi => ⟨Equiv.swap a b i, hkept i hi, Equiv.swap_apply_self a b i⟩

theorem Exchanged.keys_perm {c' : SecCam} (h : Exchanged c c' a b) (ha : a < camNum)
    (hb : b < camNum) : c'.keys.Perm c.keys := by
  have hfilter : ((List.range camNum).filter fun i => decide (c'.InUse i)) =
      (List.range camNum).filter fun i => decide (c.InUse (Equiv.swap a b i)) :=
    List.filter_congr fun i _ => decide_eq_decide.mpr (h.inUse i)
  have hmap : c'.keys = (((List.range camNum).map (Equiv.swap a b)).filter
      fun i => decide (c.InUse i)).map c.cache := by
    rw [keys, List.filter_map, List.map_map, hfilter]
    refine List.map_congr_left fun i hi => ?_
    have huse := (List.mem_filter.mp hi).2
    exact h.moved i ((h.inUse i).mpr (of_decide_eq_true huse))
  rw [hmap]
  exact ((range_map_swap_perm ha hb).filter _).map _

theorem Exchanged.twice {c' c'' : SecCam} (h : Exchanged c c' a b) (h' : Exchanged c' c'' a b) :
    (∀ i, c''.InUse i ↔ c.InUse i) ∧ ∀ i, c.InUse i → c''.cache i = c.cache i := by
  have huse (i : ℕ) : c''.InUse i ↔ c.InUse i := by
    rw [h'.inUse, h.inUse, Equiv.swap_apply_self]
  refine ⟨huse, fun i hi => ?_⟩
  have hback := (huse i).mpr hi
  rw [h'.moved i hback, h.moved _ ((h'.inUse i).mp hback), Equiv.swap_apply_self]

theorem Exchanged.twice_vacated {c' c'' : SecCam} (h : Exchanged c c' a b)
    (h' : Exchanged c' c'' a b) (hua : c.InUse a) (hub : ¬ c.InUse b) :
    c''.cache b = SecCamEnt.cleared := by
  have hfilled : c'.InUse b := by
    rw [h.inUse, Equiv.swap_apply_right]
    exact hua
  exact h'.vacated b hfilled fun hback => hub (((h.twice h').1 b).mp hback)

theorem Exchanged.keySized {c' : SecCam} (h : Exchanged c c' a b) (hkey : c.KeySized) :
    c'.KeySized := by
  intro i
  cases Decidable.em (c'.InUse i) with
  | inl huse =>
    rw [h.moved i huse]
    exact hkey _
  | inr hfree =>
    cases Decidable.em (c.InUse i) with
    | inl hold =>
      rw [h.vacated i hold hfree]
      rfl
    | inr hwas =>
      have hother : ¬ c.InUse (Equiv.swap a b i) := fun huse => hfree ((h.inUse i).mpr huse)
      cases Decidable.em (i = a) with
      | inl heq =>
        rw [heq, Equiv.swap_apply_left] at hother
        rw [h.bothFree (heq ▸ hwas) hother]
        exact hkey i
      | inr hna =>
        cases Decidable.em (i = b) with
        | inl heq =>
          rw [heq, Equiv.swap_apply_right] at hother
          rw [h.bothFree hother (heq ▸ hwas)]
          exact hkey i
        | inr hnb =>
          rw [h.others i hna hnb]
          exact hkey i

theorem Exchanged.single {c' : SecCam} (h : Exchanged c c' a b)
    (hsingle : c.Single (Equiv.swap a b i)) : c'.Single i := by
  intro huse
  rw [h.moved i huse]
  exact hsingle ((h.inUse i).mp huse)

def Restorable (c : SecCam) (a b : ℕ) : Prop :=
  (c.InUse a → ¬ c.InUse b → c.cache b = SecCamEnt.cleared) ∧
    (c.InUse b → ¬ c.InUse a → c.cache a = SecCamEnt.cleared)

theorem Exchanged.twice_cache {c' c'' : SecCam} (h : Exchanged c c' a b)
    (h' : Exchanged c' c'' a b) (hrest : c.Restorable a b) (i : ℕ) : c''.cache i = c.cache i := by
  cases Decidable.em (c.InUse i) with
  | inl huse => exact (h.twice h').2 i huse
  | inr hfree =>
    cases Decidable.em (i = a) with
    | inl heq =>
      subst heq
      cases Decidable.em (c.InUse b) with
      | inl hub => rw [h.symm.twice_vacated h'.symm hub hfree, hrest.2 hub hfree]
      | inr hub =>
        have hkept := h.bothFree hfree hub
        rw [← hkept] at hfree hub
        rw [h'.bothFree hfree hub, hkept]
    | inr hna =>
      cases Decidable.em (i = b) with
      | inl heq =>
        subst heq
        cases Decidable.em (c.InUse a) with
        | inl hua => rw [h.twice_vacated h' hua hfree, hrest.1 hua hfree]
        | inr hua =>
          have hkept := h.bothFree hua hfree
          rw [← hkept] at hfree hua
          rw [h'.bothFree hua hfree, hkept]
      | inr hnb => rw [h'.others i hna hnb, h.others i hna hnb]

theorem Exchanged.twice_eq_iff {c' c'' : SecCam} (h : Exchanged c c' a b)
    (h' : Exchanged c' c'' a b) (hchk : c''.chkBmc = c.chkBmc) :
    c'' = c ↔ c.Restorable a b := by
  constructor
  · rintro rfl
    exact ⟨fun hua hub => h.twice_vacated h' hua hub,
      fun hub hua => h.symm.twice_vacated h'.symm hub hua⟩
  · intro hrest
    have hused : c''.used = c.used :=
      BitVec.eq_of_getLsbD_eq fun i _ => Bool.eq_iff_iff.mpr ((h.twice h').1 i)
    have hcache : c''.cache = c.cache := funext (h.twice_cache h' hrest)
    cases c
    cases c''
    simp only at hchk hused hcache
    rw [hchk, hused, hcache]

theorem swapSlots_chkBmc (c : SecCam) (a b : ℕ) : (c.swapSlots a b).chkBmc = c.chkBmc := by
  have hrelease (c : SecCam) (i : ℕ) : (c.release i).chkBmc = c.chkBmc := by
    rw [release, rtwCamidFree]
    split <;> rfl
  have hinstall (c : SecCam) (i : ℕ) (e : SecCamEnt) : (c.install i e).chkBmc = c.chkBmc := by
    rw [install, rtwCamidSet]
    split <;> exact writeCam_chkBmc c i e.ctrl e.mac e.key
  simp only [swapSlots]
  split <;> split <;> simp [hrelease, hinstall]

theorem emptyEntry_some {start : ℕ} (h : c.rtwGetEmptyCamEntry start = some i) :
    start ≤ i ∧ i < camNum ∧ ¬ c.InUse i := by
  have hmem := List.mem_range'_1.mp (List.mem_of_find?_eq_some h)
  have hlt : i < camNum := by omega
  have hfree := List.find?_some h
  rw [isUsed_decide hlt] at hfree
  exact ⟨hmem.1, hlt, by simpa using hfree⟩

theorem emptyEntry_none {start : ℕ} (h : c.rtwGetEmptyCamEntry start = none) (hstart : start ≤ i)
    (hi : i < camNum) : c.InUse i := by
  have hused := List.find?_eq_none.mp h i (List.mem_range'_1.mpr ⟨hstart, by omega⟩)
  rw [isUsed_decide hi] at hused
  simpa using hused

theorem Exchanged.dkInUse {c' : SecCam} (h : Exchanged c c' a b) (hb : 4 ≤ b)
    (hub : ¬ c.InUse b) : c'.dkInUse = c.dkInUse.erase a := by
  ext i
  simp only [SecCam.dkInUse, Finset.mem_filter, Finset.mem_range, Finset.mem_erase, h.inUse]
  cases Decidable.em (i = a) with
  | inl heq => simp [heq, hub]
  | inr hna =>
    cases Decidable.em (i = b) with
    | inl heq => omega
    | inr hnb => simp [Equiv.swap_apply_of_ne_of_ne hna hnb, hna]

theorem Exchanged.spareSlots {c' : SecCam} (h : Exchanged c c' a b) (ha : a < 4)
    (hua : c.InUse a) : c'.spareSlots = c.spareSlots.erase b := by
  ext i
  simp only [SecCam.spareSlots, Finset.mem_filter, Finset.mem_Ico, Finset.mem_erase, h.inUse]
  cases Decidable.em (i = b) with
  | inl heq => simp [heq, hua]
  | inr hnb =>
    cases Decidable.em (i = a) with
    | inl heq => omega
    | inr hna => simp [Equiv.swap_apply_of_ne_of_ne hna hnb, hnb]

end SecCam

namespace CamDev

open SecCam

variable {n : ℕ} {d : CamDev n} {a b i : ℕ}

theorem swap_exchanged (ha : a < camNum) (hb : b < camNum) (hkey : d.cam.KeySized)
    (hsa : d.cam.Single a) (hsb : d.cam.Single b) :
    Exchanged d.cam (d.rtwSecCamSwap a b).cam a b := by
  cases Decidable.em (a = b) with
  | inl heq =>
    subst heq
    rw [rtwSecCamSwap, if_pos rfl]
    exact Exchanged.refl d.cam a
  | inr hne =>
    rw [rtwSecCamSwap, if_neg hne]
    exact swapSlots_exchanged hne ha hb hkey hsa hsb

theorem swap_ifaceBmc (ha : a < camNum) (hb : b < camNum) (k : Fin n) :
    (d.rtwSecCamSwap a b).ifaceBmc k = Equiv.swap a b (d.ifaceBmc k) := by
  have hinvalid : camNum ≤ invalidSecMacCamId := by decide
  cases Decidable.em (a = b) with
  | inl heq => rw [rtwSecCamSwap, if_pos heq, heq, Equiv.swap_self, Equiv.refl_apply]
  | inr hne =>
    rw [rtwSecCamSwap, if_neg hne, Equiv.swap_apply_def]
    simp only [rtwMiUpdateApBmcCamid]
    split
    · rfl
    · rename_i hnone
      rw [not_not.mp hnone, if_neg (by omega), if_neg (by omega)]

theorem swap_chkBmc (d : CamDev n) (a b : ℕ) :
    (d.rtwSecCamSwap a b).cam.chkBmc = d.cam.chkBmc := by
  rw [rtwSecCamSwap]
  split
  · rfl
  · exact swapSlots_chkBmc d.cam a b

def Restored (d d' : CamDev n) : Prop :=
  (∀ i, d'.cam.InUse i ↔ d.cam.InUse i) ∧ (∀ i, d.cam.InUse i → d'.cam.cache i = d.cam.cache i) ∧
    d'.ifaceBmc = d.ifaceBmc

theorem swap_twice (ha : a < camNum) (hb : b < camNum) (hkey : d.cam.KeySized)
    (hsa : d.cam.Single a) (hsb : d.cam.Single b) :
    Restored d ((d.rtwSecCamSwap a b).rtwSecCamSwap a b) ∧
      ((d.rtwSecCamSwap a b).rtwSecCamSwap a b = d ↔ d.cam.Restorable a b) := by
  have h := swap_exchanged ha hb hkey hsa hsb
  have hback : Exchanged (d.rtwSecCamSwap a b).cam
      ((d.rtwSecCamSwap a b).rtwSecCamSwap a b).cam a b := by
    refine swap_exchanged ha hb (h.keySized hkey) (h.single ?_) (h.single ?_)
    · rw [Equiv.swap_apply_left]
      exact hsb
    · rw [Equiv.swap_apply_right]
      exact hsa
  have hbmc : ((d.rtwSecCamSwap a b).rtwSecCamSwap a b).ifaceBmc = d.ifaceBmc := by
    funext k
    rw [swap_ifaceBmc ha hb, swap_ifaceBmc ha hb, Equiv.swap_apply_self]
  have hchk := (swap_chkBmc (d.rtwSecCamSwap a b) a b).trans (swap_chkBmc d a b)
  refine ⟨⟨(h.twice hback).1, (h.twice hback).2, hbmc⟩, ?_⟩
  rw [← h.twice_eq_iff hback hchk]
  constructor
  · exact fun heq => congrArg CamDev.cam heq
  · intro hcam
    calc (d.rtwSecCamSwap a b).rtwSecCamSwap a b
        = ⟨((d.rtwSecCamSwap a b).rtwSecCamSwap a b).cam,
            ((d.rtwSecCamSwap a b).rtwSecCamSwap a b).ifaceBmc⟩ := rfl
      _ = ⟨d.cam, d.ifaceBmc⟩ := by rw [hcam, hbmc]

structure DkReady (d : CamDev n) : Prop where
  keySized : d.cam.KeySized
  single : ∀ i < 4, d.cam.Single i

theorem cleanDk_cases (d : CamDev n) (hi : i < 4) :
    (¬ d.cam.InUse i ∨ d.cam.spareSlots = ∅) ∧ d.cleanDk i = d ∨
      ∃ e, d.cam.InUse i ∧ 4 ≤ e ∧ e < camNum ∧ ¬ d.cam.InUse e ∧
        d.cleanDk i = d.rtwSecCamSwap i e := by
  have hnum : i < camNum := hi.trans (by decide)
  cases Decidable.em (d.cam.InUse i) with
  | inr hfree =>
    refine .inl ⟨.inl hfree, ?_⟩
    simp only [cleanDk, isUsed_decide hnum, hfree, decide_false, Bool.false_eq_true, if_false]
  | inl huse =>
    cases hempty : d.cam.rtwGetEmptyCamEntry 4 with
    | none =>
      refine .inl ⟨.inr ?_, ?_⟩
      · apply Finset.filter_eq_empty_iff.mpr
        intro j hj
        rw [Finset.mem_Ico] at hj
        exact not_not.mpr (emptyEntry_none hempty hj.1 hj.2)
      · simp only [cleanDk, hempty, ite_self]
    | some e =>
      obtain ⟨he, hlt, hfree⟩ := emptyEntry_some hempty
      refine .inr ⟨e, huse, he, hlt, hfree, ?_⟩
      simp only [cleanDk, isUsed_decide hnum, huse, decide_true, if_true, hempty]
      exact if_pos (by omega)

theorem DkReady.swap (h : d.DkReady) (hi : i < 4) {e : ℕ} (he : e < camNum)
    (hfree : ¬ d.cam.InUse e) (he4 : 4 ≤ e) :
    Exchanged d.cam (d.rtwSecCamSwap i e).cam i e ∧ (d.rtwSecCamSwap i e).DkReady := by
  have hex := swap_exchanged (hi.trans (by decide)) he h.keySized (h.single i hi)
    (fun huse => absurd huse hfree)
  refine ⟨hex, hex.keySized h.keySized, fun j hj => hex.single ?_⟩
  cases Decidable.em (j = i) with
  | inl heq =>
    rw [heq, Equiv.swap_apply_left]
    exact fun huse => absurd huse hfree
  | inr hne =>
    rw [Equiv.swap_apply_of_ne_of_ne hne (by omega)]
    exact h.single j hj

theorem DkReady.cleanDk (h : d.DkReady) (hi : i < 4) :
    (d.cleanDk i).DkReady ∧ (d.cleanDk i).cam.keys.Perm d.cam.keys := by
  rcases cleanDk_cases d hi with ⟨-, hsame⟩ | ⟨e, -, he4, he, hfree, hswap⟩
  · rw [hsame]
    exact ⟨h, List.Perm.refl _⟩
  · obtain ⟨hex, hready⟩ := h.swap hi he hfree he4
    rw [hswap]
    exact ⟨hready, hex.keys_perm (hi.trans (by decide)) he⟩

def Roomy (d : CamDev n) : Prop := d.cam.dkInUse.card ≤ d.cam.spareSlots.card

theorem DkReady.cleanDk_roomy (h : d.DkReady) (hi : i < 4) (hroom : d.Roomy) :
    (d.cleanDk i).Roomy ∧ (d.cleanDk i).cam.dkInUse = d.cam.dkInUse.erase i := by
  rcases cleanDk_cases d hi with ⟨hstuck, hsame⟩ | ⟨e, huse, he4, he, hfree, hswap⟩
  · rw [hsame]
    refine ⟨hroom, (Finset.erase_eq_of_notMem fun hmem => ?_).symm⟩
    rcases hstuck with hfree | hfull
    · exact hfree (Finset.mem_filter.mp hmem).2
    · have hpos := Finset.card_pos.mpr ⟨i, hmem⟩
      rw [Roomy, hfull, Finset.card_empty] at hroom
      omega
  · have hex := (h.swap hi he hfree he4).1
    rw [hswap]
    refine ⟨?_, hex.dkInUse he4 hfree⟩
    have hmem : i ∈ d.cam.dkInUse := Finset.mem_filter.mpr ⟨Finset.mem_range.mpr hi, huse⟩
    have hspare : e ∈ d.cam.spareSlots :=
      Finset.mem_filter.mpr ⟨Finset.mem_Ico.mpr ⟨he4, he⟩, hfree⟩
    rw [Roomy] at hroom ⊢
    rw [hex.dkInUse he4 hfree, hex.spareSlots hi huse, Finset.card_erase_of_mem hmem,
      Finset.card_erase_of_mem hspare]
    omega

theorem DkReady.clean_list (h : d.DkReady) {is : List ℕ} (his : ∀ i ∈ is, i < 4) :
    (is.foldl CamDev.cleanDk d).cam.keys.Perm d.cam.keys ∧
      (d.Roomy → (is.foldl CamDev.cleanDk d).cam.dkInUse = d.cam.dkInUse \ is.toFinset) := by
  induction is generalizing d with
  | nil => exact ⟨List.Perm.refl _, fun _ => Finset.sdiff_empty.symm⟩
  | cons i is ih =>
    have hi := his i List.mem_cons_self
    obtain ⟨hready, hperm⟩ := h.cleanDk hi
    obtain ⟨hperms, hdk⟩ := ih hready fun j hj => his j (List.mem_cons_of_mem i hj)
    refine ⟨hperms.trans hperm, fun hroom => ?_⟩
    obtain ⟨hroom', hone⟩ := h.cleanDk_roomy hi hroom
    rw [List.foldl_cons, hdk hroom', hone, List.toFinset_cons, Finset.sdiff_insert,
      Finset.erase_sdiff_comm]

theorem DkReady.clean (h : d.DkReady) : d.rtwCleanDkSection.cam.keys.Perm d.cam.keys ∧
    (d.Roomy → ∀ i < 4, ¬ d.rtwCleanDkSection.cam.InUse i) := by
  have hrange : ∀ i ∈ List.range 4, i < 4 := fun i hi => List.mem_range.mp hi
  obtain ⟨hperm, hdk⟩ := h.clean_list hrange
  refine ⟨hperm, fun hroom i hi huse => ?_⟩
  have hmem : i ∈ d.rtwCleanDkSection.cam.dkInUse :=
    Finset.mem_filter.mpr ⟨Finset.mem_range.mpr hi, huse⟩
  have hempty : d.rtwCleanDkSection.cam.dkInUse = d.cam.dkInUse \ (List.range 4).toFinset :=
    hdk hroom
  rw [hempty] at hmem
  exact (Finset.mem_sdiff.mp hmem).2 (List.mem_toFinset.mpr (List.mem_range.mpr hi))

theorem sec_cam_swap_law (d : CamDev n) (hkey : d.cam.KeySized) :
    (∀ a < camNum, ∀ b < camNum, d.cam.Single a → d.cam.Single b →
      Exchanged d.cam (d.rtwSecCamSwap a b).cam a b ∧
        (∀ k, (d.rtwSecCamSwap a b).ifaceBmc k = Equiv.swap a b (d.ifaceBmc k)) ∧
        Restored d ((d.rtwSecCamSwap a b).rtwSecCamSwap a b) ∧
        ((d.rtwSecCamSwap a b).rtwSecCamSwap a b = d ↔ d.cam.Restorable a b)) ∧
      ((∀ i < 4, d.cam.Single i) → d.rtwCleanDkSection.cam.keys.Perm d.cam.keys ∧
        (d.Roomy → ∀ i < 4, ¬ d.rtwCleanDkSection.cam.InUse i)) := by
  constructor
  · intro a ha b hb hsa hsb
    obtain ⟨hrestored, hwhole⟩ := swap_twice ha hb hkey hsa hsb
    exact ⟨swap_exchanged ha hb hkey hsa hsb, swap_ifaceBmc ha hb, hrestored, hwhole⟩
  · exact fun hsingle => DkReady.clean ⟨hkey, hsingle⟩

def staleEnt : SecCamEnt := ⟨0x8040, bcAddr, List.replicate 16 7⟩

def staleDev : CamDev 1 where
  cam := ⟨false, 0x10, fun i => if i = 4 then ⟨0x8000, bcAddr, List.replicate 16 1⟩
    else if i = 5 then staleEnt else SecCamEnt.cleared⟩
  ifaceBmc := fun _ => 4

theorem staleDev_keySized : staleDev.cam.KeySized := by
  intro i
  simp only [staleDev]
  split
  · rfl
  · split <;> rfl

theorem sec_cam_swap_law_stale :
    (∀ a < camNum, ∀ b < camNum, staleDev.cam.Single a → staleDev.cam.Single b →
      Exchanged staleDev.cam (staleDev.rtwSecCamSwap a b).cam a b ∧
        (∀ k, (staleDev.rtwSecCamSwap a b).ifaceBmc k = Equiv.swap a b (staleDev.ifaceBmc k)) ∧
        Restored staleDev ((staleDev.rtwSecCamSwap a b).rtwSecCamSwap a b) ∧
        ((staleDev.rtwSecCamSwap a b).rtwSecCamSwap a b = staleDev ↔
          staleDev.cam.Restorable a b)) ∧
      ((∀ i < 4, staleDev.cam.Single i) →
        staleDev.rtwCleanDkSection.cam.keys.Perm staleDev.cam.keys ∧
          (staleDev.Roomy → ∀ i < 4, ¬ staleDev.rtwCleanDkSection.cam.InUse i)) :=
  sec_cam_swap_law staleDev staleDev_keySized

theorem stale_slot_not_exchanged :
    staleDev.cam.InUse 4 ∧ ¬ staleDev.cam.InUse 5 ∧ staleDev.cam.Single 4 ∧
      (staleDev.rtwSecCamSwap 4 5).cam.cache 4 ≠ staleDev.cam.cache 5 ∧
      (staleDev.rtwSecCamSwap 4 5).rtwSecCamSwap 4 5 ≠ staleDev := by
  have hctrl : ((staleDev.rtwSecCamSwap 4 5).cam.cache 4).ctrl = 0 := by decide
  have hback : (((staleDev.rtwSecCamSwap 4 5).rtwSecCamSwap 4 5).cam.cache 5).ctrl = 0 := by decide
  have hstale : (staleDev.cam.cache 5).ctrl = 0x8040 := rfl
  refine ⟨by decide, by decide, fun _ => rfl, fun heq => ?_, fun heq => ?_⟩
  · rw [heq, hstale] at hctrl
    exact absurd hctrl (by decide)
  · rw [heq, hstale] at hback
    exact absurd hback (by decide)

end CamDev

end Cam
