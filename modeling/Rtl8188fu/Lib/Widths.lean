import Mathlib.Algebra.GroupWithZero.Nat
import Mathlib.Data.Fin.Basic

instance neZeroFour : NeZero 4 := ⟨by decide⟩

instance neZeroSix : NeZero 6 := ⟨by decide⟩

instance neZeroSixteen : NeZero 16 := ⟨by decide⟩

instance neZeroSeqNum : NeZero 4096 := ⟨by decide⟩
