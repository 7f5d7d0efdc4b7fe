import HopTrace.Proofs.Trace.Pending

/-!
# What a probe has heard

While a probe is in the list of those that wait nothing has been handed to it.
The first reply takes it off the list and goes into its slot; whatever comes
later finds it gone and has no effect.
-/

namespace HopTrace

def Probe.Phase.isWaiting : Probe.Phase → Bool
  | .sending _ => true
  | .awaiting _ _ => true
  | _ => false

def Hop.Reports (h : Hop) (ttl : UInt16) : Option Address → Prop
  | some a => ∃ rtt, h = .reply ttl a rtt
  | none => h = .timeout ttl

theorem Hop.Reports.success_iff {h : Hop} {ttl : UInt16} {first : Option Address}
    (hr : h.Reports ttl first) (a : Address) :
    h.success = true ∧ h.address = some a ↔ first = some a := by
  cases first with
  | none =>
    rw [show h = .timeout ttl from hr]
    simp [Hop.timeout]
  | some b =>
    obtain ⟨rtt, rfl⟩ := hr
    simp [Hop.reply]

theorem Hop.Reports.ttl_eq {h : Hop} {ttl : UInt16} {first : Option Address}
    (hr : h.Reports ttl first) : h.ttl = ttl := by
  cases first with
  | none => rw [show h = .timeout ttl from hr, Hop.timeout]
  | some b =>
    obtain ⟨rtt, rfl⟩ := hr
    rfl

namespace Trace

variable {t t' : Trace} {e : TraceEvent} {i : Nat} {p : Probe} {q : Probe.Phase}

def handedBy (t : Trace) : TraceEvent → Option (ProbeKey × Address)
  | .dispatch =>
    match t.dispatcher with
    | .delivering key sender => some (key, sender)
    | _ => none
  | _ => none

/-- Who answers a probe by an event, as long as it waits. -/
def heardBy (i : Nat) (t : Trace) (e : TraceEvent) : Option Address :=
  (t.handedBy e).bind fun r => t.probes[i]?.bind fun p =>
    if p.key = r.1 ∧ p.phase.isWaiting then some r.2 else none

def usedBy (i : Nat) (t : Trace) (e : TraceEvent) : Option Address :=
  (t.handedBy e).bind fun r => if t.pending? r.1 = some i then some r.2 else none

def heard (t : Trace) (i : Nat) (events : List TraceEvent) : List Address :=
  t.observe (heardBy i) events

def used (t : Trace) (i : Nat) (events : List TraceEvent) : List Address :=
  t.observe (usedBy i) events

end Trace

/-- A probe that waits has heard nothing yet and is in the list, or has left it with the first
reply in its slot. -/
def Probe.Hears (p : Probe) (listed : Prop) (heard : List Address) : Prop :=
  listed ∧ p.slot = .empty ∧ heard = [] ∨
    ¬ listed ∧ ∃ a, p.slot = .answered a ∧ heard.head? = some a

def Probe.Told (p : Probe) (listed : Prop) (heard : List Address) : Prop :=
  match p.phase with
  | .spawned => ¬ listed ∧ p.slot = .empty ∧ heard = []
  | .sending _ => p.Hears listed heard
  | .awaiting _ _ => p.Hears listed heard
  | .expired => heard = []
  | phase => ∀ h, phase.hop? = some h → h.Reports p.key.ttl heard.head?

/-- A probe, whether it is in the list of those that wait, what it has heard, and by what it was
taken off the list. -/
structure Account (p : Probe) (listed : Prop) (heard used : List Address) : Prop where
  once : used.length ≤ 1
  unused : listed ∨ p.phase = .spawned → used = []
  told : p.Told listed heard

variable {p : Probe} {listed listed' : Prop} {heard used : List Address}

theorem Account.congr (h : Account p listed heard used) (hl : listed' ↔ listed) :
    Account p listed' heard used := by
  rwa [propext hl]

/-- What is handed over while the probe is not in the list changes nothing for it. -/
theorem Account.late (h : Account p listed heard used) (absent : ¬ listed) (sender : Address)
    (waiting : p.phase.isWaiting = true) : Account p listed (heard ++ [sender]) used := by
  refine ⟨h.once, h.unused, ?_⟩
  have hears (hh : p.Hears listed heard) : p.Hears listed (heard ++ [sender]) := by
    rcases hh with ⟨hl, -⟩ | ⟨hl, a, hslot, hhead⟩
    · exact absurd hl absent
    · exact .inr ⟨hl, a, hslot, by simp [List.head?_append, hhead]⟩
  have htold := h.told
  unfold Probe.Told at htold ⊢
  cases hphase : p.phase with
  | sending | awaiting =>
    rw [hphase] at htold
    exact hears htold
  | _ => simp [hphase, Probe.Phase.isWaiting] at waiting

/-- What is handed over to a probe in the list goes into its slot, and counts if it waits. -/
theorem Account.answer (h : Account p listed heard used) (present : listed)
    (absent : ¬ listed') (sender : Address) : Account (p.answer sender) listed'
      (heard ++ if p.phase.isWaiting then [sender] else []) (used ++ [sender]) := by
  have hused := h.unused (.inl present)
  refine ⟨by simp [hused], ?_, ?_⟩
  · rintro (hl | hs)
    · exact absurd hl absent
    · rw [Probe.phase_answer] at hs
      have htold := h.told
      simp only [Probe.Told, hs] at htold
      exact absurd present htold.1
  · have hears (hh : p.Hears listed heard) :
        (p.answer sender).Hears listed' (heard ++ [sender]) := by
      rcases hh with ⟨-, hslot, hnil⟩ | ⟨hl, -⟩
      · exact .inr ⟨absent, sender, by simp [Probe.answer, hslot], by simp [hnil]⟩
      · exact absurd present hl
    have htold := h.told
    unfold Probe.Told at htold ⊢
    rw [Probe.phase_answer, Probe.key_answer]
    cases hphase : p.phase with
    | spawned =>
      rw [hphase] at htold
      exact absurd present htold.1
    | sending | awaiting =>
      rw [hphase] at htold
      simpa [Probe.Phase.isWaiting] using hears htold
    | expired =>
      rw [hphase] at htold
      simpa [Probe.Phase.isWaiting] using htold
    | withdrawing | failing | recording | settled | released | ended =>
      rw [hphase] at htold
      simpa only [Probe.Phase.isWaiting, Bool.false_eq_true, if_false, List.append_nil] using htold

namespace Trace

variable {t t' : Trace} {e : TraceEvent} {i : Nat} {q : Probe.Phase}

theorem handedBy_of_ne (h : e ≠ .dispatch) : t.handedBy e = none := by
  cases e <;> first | rfl | exact absurd rfl h

theorem heardBy_of_handedBy (h : t.handedBy e = none) :
    t.heardBy i e = none ∧ t.usedBy i e = none := by
  simp [heardBy, usedBy, h]

theorem ProbeMove.handedBy (move : ProbeMove t i p e q t') : t.handedBy e = none := by
  cases move <;> rfl

theorem ProbeMove.account (move : ProbeMove t i p e q t')
    (h : Account p ((p.key, i) ∈ t.pending) heard used) :
    Account { p with phase := q } ((p.key, i) ∈ t'.pending) heard used := by
  have htold := h.told
  have keep (hp : p.phase ≠ .spawned) (hq : q ≠ .spawned) (hl : t'.pending = t.pending)
      (told : Probe.Told { p with phase := q } ((p.key, i) ∈ t.pending) heard) :
      Account { p with phase := q } ((p.key, i) ∈ t'.pending) heard used := by
    rw [hl]
    exact ⟨h.once, fun hor => h.unused (hor.imp_right fun hs => absurd hs hq), told⟩
  have leave (hq : q ≠ .spawned) (hl : t'.pending = t.pending.filter (·.1 ≠ p.key))
      (told : Probe.Told { p with phase := q } False heard) :
      Account { p with phase := q } ((p.key, i) ∈ t'.pending) heard used := by
    have hno : (p.key, i) ∈ t'.pending ↔ False := by simp [hl]
    refine Account.congr ⟨h.once, ?_, told⟩ hno
    rintro (hf | hs)
    · exact hf.elim
    · exact absurd hs hq
  unfold Probe.Told at htold
  cases move with
  | register phase =>
    rw [phase] at htold
    have hin : (p.key, i) ∈ (p.key, i) :: t.pending.filter (·.1 ≠ p.key) := List.mem_cons_self
    exact ⟨h.once, fun _ => h.unused (.inr phase), .inl ⟨hin, htold.2⟩⟩
  | sent phase =>
    rw [phase] at htold
    exact keep (by simp [phase]) nofun rfl htold
  | refused phase | crash phase | fail phase =>
    exact keep (by simp [phase]) nofun rfl nofun
  | withdraw phase => exact leave nofun rfl nofun
  | accept phase answered =>
    rw [phase] at htold
    refine keep (by simp [phase]) nofun rfl ?_
    rintro x hx
    obtain rfl := Option.some.inj hx
    rcases htold with ⟨-, hslot, -⟩ | ⟨-, a, hslot, hhead⟩
    · simp [answered] at hslot
    · obtain rfl : _ = a := by simpa using answered.symm.trans hslot
      rw [hhead]
      exact ⟨_, rfl⟩
  | expire phase due =>
    rw [phase] at htold
    refine keep (by simp [phase]) nofun rfl ?_
    rcases htold with ⟨-, -, hnil⟩ | ⟨-, a, hslot, -⟩
    · exact hnil
    · simp [hslot] at due
  | giveUp phase =>
    rw [phase] at htold
    refine leave nofun rfl ?_
    rintro x hx
    obtain rfl := Option.some.inj hx
    rw [show heard = [] from htold]
    rfl
  | record phase | signal phase | tell phase | giveBack phase | leave phase =>
    rw [phase] at htold
    exact keep (by simp [phase]) nofun rfl htold

def Accounted (t : Trace) (i : Nat) (heard used : List Address) : Prop :=
  match t.probes[i]? with
  | some p => Account p ((p.key, i) ∈ t.pending) heard used
  | none => heard = [] ∧ used = []

theorem Accounted.aside (h : t.Accounted i heard used) (silent : t.handedBy e = none)
    (probes : t'.probes[i]? = t.probes[i]?)
    (pending : ∀ p, t.probes[i]? = some p → ((p.key, i) ∈ t'.pending ↔ (p.key, i) ∈ t.pending)) :
    t'.Accounted i (heard ++ (t.heardBy i e).toList) (used ++ (t.usedBy i e).toList) := by
  obtain ⟨hheard, hused⟩ := heardBy_of_handedBy (i := i) silent
  rw [hheard, hused, Option.toList_none, List.append_nil, List.append_nil]
  unfold Accounted at h ⊢
  rw [probes]
  cases hp : t.probes[i]? with
  | none =>
    rw [hp] at h
    exact h
  | some p =>
    rw [hp] at h
    exact h.congr (pending p hp)

theorem ProbeMove.accounted {j : Nat} (distinct : t.Distinct) (listed : t.Listed)
    (found : t.probes[j]? = some p) (move : ProbeMove t j p e q t')
    (h : t.Accounted i heard used) :
    t'.Accounted i (heard ++ (t.heardBy i e).toList) (used ++ (t.usedBy i e).toList) := by
  by_cases hij : j = i
  · subst hij
    obtain ⟨hheard, hused⟩ := heardBy_of_handedBy (i := j) move.handedBy
    rw [hheard, hused, Option.toList_none, List.append_nil, List.append_nil]
    unfold Accounted at h ⊢
    rw [found] at h
    rw [move.getElem?_self distinct listed found]
    exact move.account h
  · exact h.aside move.handedBy (move.getElem?_ne distinct listed found hij) fun o ho =>
      move.mem_pending_ne distinct found ho hij

/-- What the dispatcher hands over changes the account of one probe at most. -/
theorem accounted_deliver {key : ProbeKey} {sender : Address} (distinct : t.Distinct)
    (listed : t.Listed) (delivering : t.dispatcher = .delivering key sender)
    (h : t.Accounted i heard used) :
    Accounted { t with
        probes := t.probesAt key (·.answer sender)
        pending := t.pending.filter (·.1 ≠ key)
        dispatcher := .receiving } i
      (heard ++ (t.heardBy i .dispatch).toList) (used ++ (t.usedBy i .dispatch).toList) := by
  have handed : t.handedBy .dispatch = some (key, sender) := by simp [Trace.handedBy, delivering]
  unfold Accounted at h ⊢
  unfold heardBy usedBy
  dsimp only
  rw [getElem?_answer, handed, Option.bind_some, Option.bind_some]
  cases hp : t.probes[i]? with
  | none =>
    rw [hp] at h
    have hno : t.pending? key ≠ some i := by
      intro hl
      obtain ⟨p, hp', -⟩ := exists_of_pending? distinct listed hl
      simp [hp] at hp'
    simpa [hno] using h
  | some p =>
    rw [hp] at h
    by_cases hk : p.key = key
    · subst hk
      -- Only the first reply finds the probe in the list; a later one is heard, but not used.
      by_cases hin : (p.key, i) ∈ t.pending
      · have hl := (pending?_eq_some_iff distinct listed).mpr hin
        have ha := h.answer hin (by simp : ¬ (p.key, i) ∈ t.pending.filter (·.1 ≠ p.key)) sender
        by_cases hw : p.phase.isWaiting = true <;> simpa [hl, hw] using ha
      · have hl := pending?_eq_none distinct listed hp hin
        by_cases hw : p.phase.isWaiting = true
        · simpa [hl, hw, hin] using h.late hin sender hw
        · simpa [hl, hw, hin] using h
    · -- The reply is for another key.
      have hno : t.pending? key ≠ some i := by
        intro hl
        obtain ⟨o, ho, hok, -⟩ := exists_of_pending? distinct listed hl
        obtain rfl := Option.some.inj (hp.symm.trans ho)
        exact hk hok
      simpa [hno, hk] using h

theorem DispatchMove.accounted (distinct : t.Distinct) (listed : t.Listed)
    (move : DispatchMove t t') (h : t.Accounted i heard used) :
    t'.Accounted i (heard ++ (t.heardBy i .dispatch).toList)
      (used ++ (t.usedBy i .dispatch).toList) := by
  cases move with
  | receive receiving | ignore receiving | crash receiving | finish receiving =>
    exact h.aside (by simp [Trace.handedBy, receiving]) rfl fun _ _ => Iff.rfl
  | deliver delivering => exact accounted_deliver distinct listed delivering h

theorem Move.accounted (distinct : t.Distinct) (listed : t.Listed) (move : Move t e t')
    (h : t.Accounted i heard used) :
    t'.Accounted i (heard ++ (t.heardBy i e).toList) (used ++ (t.usedBy i e).toList) := by
  cases move with
  | main move =>
    cases move with
    | spawn =>
      by_cases hi : i = t.probes.size
      · -- The new probe is not in the list, where only older ones are.
        have hnone : t.probes[i]? = none := Array.getElem?_eq_none (by omega)
        unfold Accounted at h ⊢
        rw [hnone] at h
        obtain ⟨rfl, rfl⟩ := h
        change match (t.probes.push _)[i]? with
          | some p => Account p ((p.key, i) ∈ t.pending) _ _
          | none => _
        rw [hi, Array.getElem?_push_size]
        refine ⟨Nat.zero_le _, fun _ => rfl, fun hm => ?_, rfl, rfl⟩
        obtain ⟨o, ho, -⟩ := listed _ _ hm
        rw [← hi, hnone] at ho
        contradiction
      · exact h.aside rfl (by simp [Array.getElem?_push, hi]) fun _ _ => Iff.rfl
    | _ => exact h.aside rfl rfl fun _ _ => Iff.rfl
  | probe found move => exact move.accounted distinct listed found h
  | dispatch move => exact move.accounted distinct listed h
  | loop move =>
    have hne : e ≠ .dispatch := by cases move <;> exact nofun
    exact h.aside (handedBy_of_ne hne) rfl fun _ _ => Iff.rfl
  | clock => exact h.aside rfl rfl fun _ _ => Iff.rfl

variable {setup : TraceSetup} {plugins : PluginSet} {events : List TraceEvent}

theorem accounted_of_run (hr : (start setup plugins).run events = some t) (i : Nat) :
    t.Accounted i ((start setup plugins).heard i events) ((start setup plugins).used i events) := by
  refine run_induction (P := fun events s => s.Accounted i
    ((start setup plugins).heard i events) ((start setup plugins).used i events)) ?_ ?_ hr
  · unfold Accounted
    rw [(start_empty setup plugins).1]
    exact ⟨rfl, rfl⟩
  · intro events s e s' hr' h hs
    have hstep := (move_of_step hs).accounted (distinct_of_run hr') (listed_of_run hr') h
    rwa [heard, used, observe_concat _ hr' hs, observe_concat _ hr' hs]

end Trace

end HopTrace
