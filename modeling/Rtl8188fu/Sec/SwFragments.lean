import Rtl8188fu.Sec.Arcfour
import Rtl8188fu.Xmit.FragmentLayout

namespace Sec

open Recv (MacAddr SecurityType isMcast setIceIvLen)
open Xmit (PktAttrib SwCipher XmitFrame Fragment fragPayload rnd4 rnd4_le swencryptLoop hwHdrOffset
  icvLength swKey)
open ByteMemory

def swCipher (other : SwCipher) : SwCipher where
  crypt e key ta hdr payload :=
    if rc4Cipher e then
      encryptFragment (rc4Key e key ta (hdr.drop (hdr.length - (setIceIvLen e).1))) payload
    else other.crypt e key ta hdr payload
  length_crypt e key ta hdr payload := by
    cases e with
    | wep40 => exact length_encryptFragment _ _
    | wep104 => exact length_encryptFragment _ _
    | tkip => exact length_encryptFragment _ _
    | _ => exact other.length_crypt _ _ _ _ _

variable (other : SwCipher) (sec : Xmit.SecurityPriv) (fragLen : ℕ)

def encryptFragments (x : XmitFrame) : XmitFrame :=
  { x with
    mem := swencryptLoop (swCipher other) (swKey sec x.attrib) x.attrib fragLen x.attrib.nrFrags
      (x.bufAddr + hwHdrOffset x) x.mem }

def rtwWepEncrypt (x : XmitFrame) : XmitFrame :=
  if x.attrib.encrypt = .wep40 ∨ x.attrib.encrypt = .wep104 then encryptFragments other sec fragLen x
  else x

def rtwTkipEncrypt (x : XmitFrame) : XmitFrame :=
  if x.attrib.encrypt = .tkip then encryptFragments other sec fragLen x else x

def fragments (p : PktAttrib) (fragLen : ℕ) : ℕ → ℕ → List Fragment
  | 0, _ => []
  | left + 1, pframe =>
    ⟨pframe, if left = 0 then p.lastTxcmdsz else fragLen⟩ ::
      fragments p fragLen left (rnd4 (pframe + fragLen))

structure Laid (p : PktAttrib) (fragLen : ℕ) : Prop where
  cipher : rc4Cipher p.encrypt = true
  ivLen : p.ivLen = (setIceIvLen p.encrypt).1
  icvLen : p.icvLen = 4
  lastRoom : p.hdrlen + p.ivLen + p.icvLen ≤ p.lastTxcmdsz
  fragRoom : 1 < p.nrFrags → p.hdrlen + p.ivLen + p.icvLen ≤ fragLen

def header (p : PktAttrib) (m : Mem UInt8) (g : Fragment) : List UInt8 :=
  read m g.start (p.hdrlen + p.ivLen)

def plain (p : PktAttrib) (m : Mem UInt8) (g : Fragment) : List UInt8 :=
  read m (g.start + p.hdrlen + p.ivLen) (g.size - p.hdrlen - p.ivLen - p.icvLen)

def onAir (key : List UInt8) (p : PktAttrib) (m : Mem UInt8) (g : Fragment) : List UInt8 :=
  header p m g ++
    encryptFragment (rc4Key p.encrypt key p.ta ((header p m g).drop p.hdrlen)) (plain p m g)

variable {p : PktAttrib} {fragLen} {m m' : Mem UInt8} {g : Fragment} {key : List UInt8} {n pframe : ℕ}

theorem fragments_start (hg : g ∈ fragments p fragLen n pframe) : pframe ≤ g.start := by
  induction n generalizing pframe with
  | zero => cases hg
  | succ n ih =>
    rcases List.mem_cons.mp hg with rfl | hg
    · exact Nat.le_refl _
    · have hnext := ih hg
      have hround := rnd4_le (pframe + fragLen)
      omega

theorem fragments_room (hroom : p.hdrlen + p.ivLen + p.icvLen ≤ p.lastTxcmdsz)
    (hmore : 1 < n → p.hdrlen + p.ivLen + p.icvLen ≤ fragLen)
    (hg : g ∈ fragments p fragLen n pframe) : p.hdrlen + p.ivLen + p.icvLen ≤ g.size := by
  induction n generalizing pframe with
  | zero => cases hg
  | succ n ih =>
    rcases List.mem_cons.mp hg with rfl | hg
    · cases n with
      | zero => exact hroom
      | succ n => exact hmore (by omega)
    · exact ih (fun h => hmore (by omega)) hg

theorem swencryptLoop_below (c : SwCipher) {i : ℕ} (hi : i < pframe) :
    swencryptLoop c key p fragLen n pframe m i = m i := by
  induction n generalizing pframe m with
  | zero => rfl
  | succ n ih =>
    have hround := rnd4_le (pframe + fragLen)
    rw [swencryptLoop, ih (by omega), write_below _ _ (by omega)]

theorem onAir_congr (hsame : ∀ i, g.start ≤ i → m' i = m i) : onAir key p m' g = onAir key p m g := by
  have hheader : header p m' g = header p m g := read_congr fun i hi _ => hsame i hi
  have hplain : plain p m' g = plain p m g := read_congr fun i hi _ => hsame i (by omega)
  rw [onAir, onAir, hheader, hplain]

theorem swCipher_crypt (he : rc4Cipher p.encrypt = true) (hiv : p.ivLen = (setIceIvLen p.encrypt).1) :
    (swCipher other).crypt p.encrypt key p.ta (header p m g) (plain p m g) =
      encryptFragment (rc4Key p.encrypt key p.ta ((header p m g).drop p.hdrlen)) (plain p m g) := by
  have hlen : (header p m g).length - (setIceIvLen p.encrypt).1 = p.hdrlen := by
    rw [header, length_read, ← hiv, Nat.add_sub_cancel]
  simp only [swCipher, he, hlen, if_true]

theorem swencryptLoop_fragment (he : rc4Cipher p.encrypt = true)
    (hiv : p.ivLen = (setIceIvLen p.encrypt).1) (hicv : p.icvLen = 4)
    (hroom : p.hdrlen + p.ivLen + p.icvLen ≤ p.lastTxcmdsz)
    (hmore : 1 < n → p.hdrlen + p.ivLen + p.icvLen ≤ fragLen)
    (hg : g ∈ fragments p fragLen n pframe) :
    Holds (swencryptLoop (swCipher other) key p fragLen n pframe m) g.start (onAir key p m g) := by
  induction n generalizing pframe m with
  | zero => cases hg
  | succ n ih =>
    have hround := rnd4_le (pframe + fragLen)
    let first : Fragment := ⟨pframe, if n = 0 then p.lastTxcmdsz else fragLen⟩
    have hsize : p.hdrlen + p.ivLen + p.icvLen ≤ first.size :=
      fragments_room hroom hmore (List.mem_cons_self)
    let body := encryptFragment
      (rc4Key p.encrypt key p.ta ((header p m first).drop p.hdrlen)) (plain p m first)
    let written := write m (pframe + p.hdrlen + p.ivLen) body
    have hbody : body.length = first.size - p.hdrlen - p.ivLen - p.icvLen + 4 := by
      rw [length_encryptFragment, plain, length_read]
    have hstep : swencryptLoop (swCipher other) key p fragLen (n + 1) pframe m =
        swencryptLoop (swCipher other) key p fragLen n (rnd4 (pframe + fragLen)) written := by
      rw [swencryptLoop]
      change swencryptLoop _ _ _ _ _ _ (write m _ ((swCipher other).crypt p.encrypt key p.ta
        (header p m first) (plain p m first))) = _
      rw [swCipher_crypt other he hiv]
    rw [hstep]
    rcases List.mem_cons.mp hg with rfl | hg
    · have hhead : Holds m pframe (header p m first) := by
        apply Holds.of_read
        rw [header, length_read]
      have hfirst : Holds written pframe (header p m first ++ body) :=
        hhead.write_end (by rw [header, length_read, Nat.add_assoc])
      refine hfirst.congr fun i _ hi => ?_
      cases n with
      | zero => rfl
      | succ n =>
        apply swencryptLoop_below
        have hlen : first.size = fragLen := rfl
        rw [List.length_append, header, length_read, hbody] at hi
        omega
    · have hstart := fragments_start hg
      have hn : 0 < n := by
        cases n with
        | zero => cases hg
        | succ n => exact Nat.succ_pos n
      have hlen : first.size = fragLen := if_neg (Nat.ne_of_gt hn)
      have hsame : ∀ i, g.start ≤ i → written i = m i := by
        intro i hi
        apply write_above
        omega
      rw [← onAir_congr hsame]
      exact ih (fun h => hmore (by omega)) hg

theorem layFragments_lastRoom {frgLen hwOffset hdrStart fuel memStart frgInx : ℕ}
    {pktfile : List UInt8} {l : Xmit.Layout}
    (h : Xmit.layFragments p frgLen hwOffset hdrStart fuel m memStart frgInx pktfile = some l) :
    p.hdrlen + p.ivLen + p.swIcv ≤ l.lastTxcmdsz := by
  induction fuel generalizing m memStart frgInx pktfile l with
  | zero => cases h
  | succ fuel ih =>
    cases Decidable.em
        (isMcast p.ra = true ∨ pktfile.length ≤ (p.chunk frgLen frgInx pktfile).length) with
    | inl hlast =>
      rw [Xmit.layFragments_last hlast] at h
      cases h
      dsimp only
      omega
    | inr hlast =>
      rw [Xmit.layFragments_next hlast] at h
      obtain ⟨l', hl', rfl⟩ := Option.map_eq_some_iff.mp h
      have hroom := ih hl'
      exact hroom

theorem laid_of_layFragments {frgLen hwOffset hdrStart fuel memStart frgInx : ℕ}
    {pktfile : List UInt8} {l : Xmit.Layout} (hcipher : rc4Cipher p.encrypt = true)
    (hiv : p.ivLen = (setIceIvLen p.encrypt).1) (hicv : p.icvLen = 4) (hsw : p.bswenc = true)
    (hfrag : p.hdrlen + p.ivLen + p.icvLen ≤ fragLen)
    (h : Xmit.layFragments p frgLen hwOffset hdrStart fuel m memStart frgInx pktfile = some l) :
    Laid { p with nrFrags := l.frags.length, lastTxcmdsz := l.lastTxcmdsz } fragLen := by
  have hroom := layFragments_lastRoom h
  rw [PktAttrib.swIcv, if_pos hsw] at hroom
  exact ⟨hcipher, hiv, hicv, hroom, fun _ => hfrag⟩

end Sec
