import PoolSnapshot.Call
import PoolSnapshot.Contract.Catalogue
import Mathlib.Data.List.Nodup
import Mathlib.Data.List.Perm.Basic

/-!
Functions told apart by the first four bytes of a call. No two functions that a snapshot may call share
a selector, so a call says which of them it is made to.
-/
namespace PoolSnapshot

open Abi (Function Value)

namespace Interface

/-- The selectors of all functions, interface by interface, as big-endian numbers. -/
def selectors : List Nat :=
  [0x21f8a721, 0xbd02d0f5, 0x7ae1cfca, 0x4d2301cc, 0x42cbb15c, 0xae4d0bed, 0xeff7319f, 0x1ce9ec33,
   0x8b300029, 0x606bb62e, 0x3eb535e9, 0x2cb76c37, 0x0c21b8a7, 0x5ea1a6e2, 0x54fd4d50, 0x4e69d560,
   0xe67cd5b0, 0x3e0a56b0, 0xa129a5ee, 0x70dabc9e, 0xe7150134, 0x74ca6bf2, 0xfbc02c42, 0x69c089ea,
   0xe7e04aba, 0xd91eda62, 0xa2940a90, 0x8ee7d0cb, 0xbc7f3b50, 0xbe1d1d32, 0x1dcef0bf, 0x7bfaef7d,
   0xbbe38fe1, 0x49b42321, 0x1a69d18f, 0x19f18b1f, 0xb3b4c656, 0xcb98f793, 0x46505530, 0x138f3d0d,
   0x81037f20, 0x179e5279, 0x997072f7, 0xe992c817, 0x5dc33bdd, 0x3e2d45d1, 0x8840fe0c, 0x5987956e,
   0x51553095, 0x03c86bbd, 0xb3ade928, 0x7a1b2327, 0xc26c12eb, 0xcea5e321, 0xb4d42087, 0xcbec77cd,
   0x4a037400, 0x6a50c71e, 0xec5b4616, 0xf0245dc8, 0x754b6a73, 0xc4f50252, 0x7f22f46d, 0x92bbae48,
   0x8f2a02b4, 0xa8301dbc, 0x10f66424, 0x0a092a4e, 0x75bb09c6, 0x3c564f0a]

theorem selectors_eq :
    ((catalogue.flatMap functions).map Function.selector).map Bytes.ofBigEndian = selectors := by
  decide +kernel

theorem knownFunctions_perm : knownFunctions.Perm (catalogue.flatMap functions) := by
  refine List.Perm.flatMap_left _ ?_
  exact fun ι _ => List.mergeSort_perm ι.functions _

theorem nodup_selectors : (knownFunctions.map Function.selector).Nodup := by
  refine (knownFunctions_perm.map _).nodup_iff.mpr ?_
  refine List.Nodup.of_map Bytes.ofBigEndian ?_
  rw [selectors_eq]
  decide

theorem selector_inj {f g : Function} (hf : f ∈ knownFunctions) (hg : g ∈ knownFunctions)
    (same : f.selector = g.selector) : f = g :=
  List.inj_on_of_nodup_map nodup_selectors hf hg same

/-- The name and the argument types of a function that a snapshot may call. -/
def Known (signature : String) : Prop := ∃ f ∈ knownFunctions, f.signature = signature

def signatures : List String := (catalogue.flatMap functions).map Function.signature

theorem known_of_mem (m : s ∈ signatures) : Known s := by
  obtain ⟨f, n, rfl⟩ := List.mem_map.mp m
  exact ⟨f, knownFunctions_perm.mem_iff.mpr n, rfl⟩

end Interface

/-- A call of the function that has the signature. -/
def Call.to (target : Address) (signature : String) (args : List Value) : Call :=
  ⟨target, (Keccak.digest (Bytes.ofText signature)).take 4 ++ Abi.encode args⟩

/-- A call shows its function. -/
theorem Call.function_inj {f g : Function} {args args' : List Value} (hf : f ∈ Interface.knownFunctions)
    (hg : g ∈ Interface.knownFunctions) (same : Call.to a f.signature args = .to b g.signature args') :
    a = b ∧ f = g ∧ Abi.encode args = Abi.encode args' := by
  injection same with target data
  obtain ⟨selector, encoded⟩ := List.append_inj data (f.length_selector.trans g.length_selector.symm)
  exact ⟨target, Interface.selector_inj hf hg selector, encoded⟩

theorem Call.to_inj {args args' : List Value} (known : Interface.Known s) (known' : Interface.Known s')
    (same : Call.to a s args = .to b s' args') : a = b ∧ s = s' ∧ Abi.encode args = Abi.encode args' := by
  obtain ⟨f, hf, rfl⟩ := known
  obtain ⟨g, hg, rfl⟩ := known'
  obtain ⟨target, rfl, encoded⟩ := Call.function_inj hf hg same
  exact ⟨target, rfl, encoded⟩

end PoolSnapshot
