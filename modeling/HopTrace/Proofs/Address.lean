import HopTrace.Hop.Basic
import Mathlib.Data.Option.Basic
import Mathlib.Tactic.SplitIfs

/-!
# The two forms of an old address

An old address may be written as it is or as the groups that stand for it. Two
addresses have the same canonical form exactly if they are the same but for
that. A hop shows the destination in either form.
-/

namespace HopTrace

theorem octets_joinOctets (hi lo : UInt8) :
    highOctet (joinOctets hi lo) = hi ∧ lowOctet (joinOctets hi lo) = lo := by
  have h1 := hi.toNat_lt
  have h2 := lo.toNat_lt
  have hj : (joinOctets hi lo).toNat = hi.toNat * 256 + lo.toNat :=
    UInt16.toNat_ofNat_of_lt' (by simp only [UInt16.size]; omega)
  have hdiv : (hi.toNat * 256 + lo.toNat) / 256 = hi.toNat := by omega
  have hmod : (hi.toNat * 256 + lo.toNat) % 256 = lo.toNat := by omega
  rw [highOctet, lowOctet, hj, hdiv, hmod]
  exact ⟨UInt8.ofNat_toNat, UInt8.ofNat_toNat⟩

theorem joinOctets_octets (g : UInt16) : joinOctets (highOctet g) (lowOctet g) = g := by
  have hg := g.toNat_lt
  have hhigh : (highOctet g).toNat = g.toNat / 256 :=
    UInt8.toNat_ofNat_of_lt' (by simp only [UInt8.size]; omega)
  have hlow : (lowOctet g).toNat = g.toNat % 256 :=
    UInt8.toNat_ofNat_of_lt' (by simp only [UInt8.size]; omega)
  rw [joinOctets, hhigh, hlow, Nat.div_add_mod', UInt16.ofNat_toNat]

theorem Octets.mapped?_mapped (o : Octets) : o.mapped.mapped? = some o := by
  obtain ⟨a, b, c, d⟩ := o
  simp only [Groups.mapped?, Octets.mapped, octets_joinOctets]

/-- Groups stand for an old address only if they are those made for it. -/
theorem Groups.eq_mapped_of_mapped? {g : Groups} {o : Octets} (h : g.mapped? = some o) :
    g = o.mapped := by
  obtain ⟨parts, length_parts⟩ := g
  unfold mapped? at h
  split at h
  next hi lo hparts =>
    obtain rfl := Option.some.inj h
    subst hparts
    simp only [Octets.mapped, joinOctets_octets]
  next => contradiction

namespace Address

variable {a b : Address}

/-- Whether two addresses are the same, but perhaps for the form of an old one. -/
inductive Alias : Address → Address → Prop
  | same (a : Address) : Alias a a
  | mapped (o : Octets) : Alias (.v6 o.mapped) (.v4 o)
  | unmapped (o : Octets) : Alias (.v4 o) (.v6 o.mapped)

theorem canonical_mapped (o : Octets) : (Address.v6 o.mapped).canonical = .v4 o := by
  rw [canonical, o.mapped?_mapped]

theorem canonical_cases (a : Address) :
    a.canonical = a ∨ ∃ o : Octets, a = .v6 o.mapped ∧ a.canonical = .v4 o := by
  cases a with
  | v4 o => exact .inl rfl
  | v6 g =>
    cases hg : g.mapped? with
    | none => exact .inl (by simp [canonical, hg])
    | some o => exact .inr ⟨o, by rw [Groups.eq_mapped_of_mapped? hg], by simp [canonical, hg]⟩

theorem canonical_eq_iff : a.canonical = b.canonical ↔ a.Alias b := by
  constructor
  · intro h
    rcases canonical_cases a with ha | ⟨o, rfl, ha⟩ <;>
      rcases canonical_cases b with hb | ⟨o', rfl, hb⟩ <;> rw [ha, hb] at h
    · exact h ▸ .same a
    · exact h ▸ .unmapped o'
    · exact h ▸ .mapped o
    · cases h
      exact .same _
  · rintro (a | o | o)
    · rfl
    · exact canonical_mapped o
    · exact (canonical_mapped o).symm

end Address

namespace Hop

variable {h x y : Hop} {destination destination' : Address}

/-- Whether a hop is an answer of the destination, in either form of its address. -/
def From (h : Hop) (destination : Address) : Prop :=
  h.success = true ∧ ∃ a, h.address = some a ∧ a.canonical = destination.canonical

theorem reached_iff : h.reached destination = true ↔ h.From destination := by
  unfold reached answeredBy From
  cases h.success <;> cases h.address <;> simp

def Alike (x y : Hop) : Prop := Option.Rel Address.Alias x.answeredBy y.answeredBy

theorem alike_refl (x : Hop) : x.Alike x := by
  unfold Alike
  cases x.answeredBy with
  | none => exact .none
  | some a => exact .some (.same a)

theorem alike_of_success (hs : x.success = y.success)
    (ha : x.success = true → Option.Rel Address.Alias x.address y.address) : x.Alike y := by
  unfold Alike answeredBy
  rw [← hs]
  split_ifs with hx
  · exact ha hx
  · exact .none

theorem Alike.reached (h : x.Alike y) (hd : destination.Alias destination') :
    x.reached destination = y.reached destination' := by
  unfold Alike at h
  unfold Hop.reached
  have hd' := Address.canonical_eq_iff.mpr hd
  cases hx : x.answeredBy <;> cases hy : y.answeredBy <;> rw [hx, hy] at h <;> cases h
  · rfl
  next a b hab => simp [Address.canonical_eq_iff.mpr hab, hd']

end Hop

end HopTrace
