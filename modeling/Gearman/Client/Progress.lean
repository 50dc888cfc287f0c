import Gearman.Client.Pump

/-!
Reading gets somewhere: after a server has been pumped there is nothing left to do for its session, or
less than before. Pumping one server leaves the sessions of the others alone, unless it ends the
client.
-/

namespace Gearman.Client

/-- The sessions of `c'` other than the one of `server` are sessions of `c`. -/
def KeepsOthers (server : Address) (c c' : Client) : Prop :=
  ∀ other, other ≠ server →
    c'.sessions.get? other = c.sessions.get? other ∨ c'.sessions.get? other = none

theorem KeepsOthers.refl (server : Address) (c : Client) : KeepsOthers server c c :=
  fun _ _ => .inl rfl

theorem KeepsOthers.trans {server : Address} {c c' c'' : Client} (h : KeepsOthers server c c')
    (h' : KeepsOthers server c' c'') : KeepsOthers server c c'' := by
  intro other hne
  rcases h' other hne with heq | hnone
  · rw [heq]
    exact h other hne
  · exact .inr hnone

theorem keepsOthers_of_insert {server : Address} {c c' : Client} {s : Session}
    (h : c'.sessions = c.sessions.insert server s) : KeepsOthers server c c' := by
  intro other hne
  rw [h]
  exact .inl (Table.get?_insert_of_ne (Ne.symm hne))

theorem keepsOthers_dropSession (c : Client) (server : Address) :
    KeepsOthers server c (c.dropSession server) := by
  intro other hne
  rcases sessions_dropSession c server with h | h
  · rw [h]
    exact .inl (Table.get?_erase_of_ne (Ne.symm hne))
  · rw [h]
    exact .inr rfl

theorem totalLoad_insert {c c' : Client} {server : Address} {s s' : Session}
    (hs : c.sessions.get? server = some s) (h : c'.sessions = c.sessions.insert server s') :
    c'.totalLoad + s.load = c.totalLoad + s'.load := by
  simp only [totalLoad, h]
  exact Table.total_insert _ hs

theorem totalLoad_dropSession_le (c : Client) (server : Address) :
    (c.dropSession server).totalLoad ≤ c.totalLoad := by
  rcases sessions_dropSession c server with h | h
  · simp only [totalLoad, h]
    exact Table.total_erase_le _
  · simp only [totalLoad, h]
    exact Nat.zero_le _

/-- A read changes one session. It has less to do then, or nothing. -/
theorem totalLoad_of_receive {c c' : Client} {server : Address}
    {r : Except Error (Option Session.Event)} (h : c.receive server = (r, c')) :
    KeepsOthers server c c' ∧ c'.totalLoad ≤ c.totalLoad ∧
      ((∃ event, r = .ok (some event)) ∨ c'.isReady server = true → c'.totalLoad < c.totalLoad) := by
  unfold receive at h
  split at h
  · next hs =>
    cases h
    exact ⟨.refl _ _, Nat.le_refl _, by simp [isReady, hs]⟩
  · next s hs =>
    split at h
    · split at h
      · next event s' hstep =>
        cases h
        generalize hc₁ : { c with sessions := c.sessions.insert server s' } = c₁
        have hsessions : c₁.sessions = c.sessions.insert server s' := by rw [← hc₁]
        have hload := totalLoad_insert hs hsessions
        refine ⟨keepsOthers_of_insert hsessions, ?_⟩
        cases event with
        | none =>
          obtain ⟨hle, hlt⟩ := Session.load_of_step_none hstep
          refine ⟨by omega, fun hready => ?_⟩
          have : s'.load < s.load := hlt (by simpa [isReady, hsessions] using hready)
          omega
        | some event =>
          have := Session.load_of_step_some hstep
          simp only [Header.size] at this
          exact ⟨by omega, fun _ => by omega⟩
      · next e s' hstep =>
        cases h
        generalize hc₁ : { c with sessions := c.sessions.insert server s' } = c₁
        have hsessions : c₁.sessions = c.sessions.insert server s' := by rw [← hc₁]
        have hs₁ : c₁.sessions.get? server = some s' := by
          rw [hsessions]
          exact Table.get?_insert_self
        have hreset := sessions_resetSession hs₁
        refine ⟨(keepsOthers_of_insert hsessions).trans (keepsOthers_of_insert hreset), ?_⟩
        have hload := totalLoad_insert hs hsessions
        have hfresh := totalLoad_insert hs₁ hreset
        have hzero (settings : ConnectionSettings) :
            ({ address := server, settings } : Session).load = 0 := rfl
        rw [hzero] at hfresh
        refine ⟨by omega, fun hready => ?_⟩
        simp [isReady, hreset, Session.isReady, Session.connection?] at hready
    · next hlive =>
      cases h
      refine ⟨.refl _ _, Nat.le_refl _, fun hready => ?_⟩
      have hready : s.isReady = true := by simpa [isReady, hs] using hready
      exact absurd (Session.isLive_of_isReady hready) hlive

/-- Whatever comes of a packet, there is not more to do than before. -/
theorem totalLoad_of_dispatch {c c' : Client} {server : Address} {event : Session.Event}
    {r : Except Error Unit} (h : c.dispatch server event = (r, c')) :
    KeepsOthers server c c' ∧ c'.totalLoad ≤ c.totalLoad := by
  cases r with
  | ok _ =>
    have hsessions := sessions_of_dispatch h
    refine ⟨fun other _ => .inl (by rw [hsessions]), ?_⟩
    simp only [totalLoad, hsessions]
    exact Nat.le_refl _
  | error e =>
    rcases sessions_of_dispatch_error h with hsessions | rfl
    · refine ⟨fun other _ => .inl (by rw [hsessions]), ?_⟩
      simp only [totalLoad, hsessions]
      exact Nat.le_refl _
    · exact ⟨keepsOthers_dropSession c server, totalLoad_dropSession_le c server⟩

/-- A session that is ready after it was pumped has less to do than before. -/
theorem totalLoad_pump (c : Client) (server : Address) :
    KeepsOthers server c (c.pump server).2 ∧ (c.pump server).2.totalLoad ≤ c.totalLoad ∧
      ((c.pump server).2.isReady server = true → (c.pump server).2.totalLoad < c.totalLoad) := by
  fun_induction pump c server with
  | case1 c e c' hreceive =>
    obtain ⟨hkeep, hle, hlt⟩ := totalLoad_of_receive hreceive
    exact ⟨hkeep, hle, fun hready => hlt (.inr hready)⟩
  | case2 c c' hreceive =>
    obtain ⟨hkeep, hle, hlt⟩ := totalLoad_of_receive hreceive
    exact ⟨hkeep, hle, fun hready => hlt (.inr hready)⟩
  | case3 c event c' hreceive e c'' hdispatch =>
    obtain ⟨hkeep, hle, hlt⟩ := totalLoad_of_receive hreceive
    obtain ⟨hkeep', hle'⟩ := totalLoad_of_dispatch hdispatch
    have := hlt (.inl ⟨event, rfl⟩)
    exact ⟨hkeep.trans hkeep', Nat.le_trans hle' hle, fun _ => Nat.lt_of_le_of_lt hle' this⟩
  | case4 c event c' hreceive c'' hdispatch ih =>
    obtain ⟨hkeep, hle, hlt⟩ := totalLoad_of_receive hreceive
    obtain ⟨hkeep', hle'⟩ := totalLoad_of_dispatch hdispatch
    obtain ⟨hkeep'', hle'', _⟩ := ih
    have := hlt (.inl ⟨event, rfl⟩)
    exact ⟨(hkeep.trans hkeep').trans hkeep'', by omega, fun _ => by omega⟩

theorem totalLoad_of_pump {c c' : Client} {server : Address} {r : Except Error Unit}
    (h : c.pump server = (r, c')) (hready : c'.isReady server = true) :
    c'.totalLoad < c.totalLoad := by
  have := (totalLoad_pump c server).2.2
  rw [h] at this
  exact this hready

/-- What is ready after some servers were pumped was ready before, or less is left to do. -/
theorem totalLoad_pumpAll (c : Client) (servers : List Address) :
    (c.pumpAll servers).totalLoad ≤ c.totalLoad ∧
      ∀ server, (c.pumpAll servers).isReady server = true →
        c.sessions.get? server = (c.pumpAll servers).sessions.get? server ∧ server ∉ servers ∨
          (c.pumpAll servers).totalLoad < c.totalLoad := by
  induction servers generalizing c with
  | nil => exact ⟨Nat.le_refl _, fun server _ => .inl ⟨rfl, List.not_mem_nil⟩⟩
  | cons first rest ih =>
    have hstep : c.pumpAll (first :: rest) = (c.pump first).2.pumpAll rest := rfl
    rw [hstep]
    obtain ⟨hkeep, hle, hlt⟩ := totalLoad_pump c first
    obtain ⟨hle', hready'⟩ := ih (c.pump first).2
    refine ⟨Nat.le_trans hle' hle, fun server hready => ?_⟩
    rcases hready' server hready with ⟨heq, hmem⟩ | hless
    · by_cases hfirst : server = first
      · subst hfirst
        have : (c.pump server).2.isReady server = true := by
          simp only [isReady] at hready ⊢
          rwa [heq]
        exact .inr (Nat.lt_of_le_of_lt hle' (hlt this))
      · refine .inl ⟨?_, by simp [hfirst, hmem]⟩
        rcases hkeep server hfirst with hsame | hnone
        · rw [← heq, hsame]
        · rw [hnone] at heq
          simp [isReady, ← heq] at hready
    · exact .inr (Nat.lt_of_lt_of_le hless hle)

/-- A live session that is ready after all live sessions were pumped has left less to do. -/
theorem totalLoad_pumpAll_liveServers {c : Client}
    (h : (c.pumpAll c.liveServers).liveServers.any (c.pumpAll c.liveServers).isReady = true) :
    (c.pumpAll c.liveServers).totalLoad < c.totalLoad := by
  obtain ⟨server, -, hready⟩ := List.any_eq_true.1 h
  rcases (totalLoad_pumpAll c c.liveServers).2 server hready with ⟨heq, hmem⟩ | hless
  · simp only [isReady, ← heq] at hready
    obtain ⟨s, hs, hready⟩ := (Option.any_eq_true ..).1 hready
    exact absurd (Table.mem_keys_filter hs (Session.isLive_of_isReady hready)) hmem
  · exact hless

end Gearman.Client
