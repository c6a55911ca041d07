import SignalFoundry.Lattice.Shadow.Store
import SignalFoundry.Library.Platform

/-!
# Schedules of a shadow campaign

In every schedule a batch is stored with all its forecasts or not at all, and one
for each instant (`Store.Sound`). A call acts on the state that it read before its
transaction; while no other call has moved the campaign in between
(`Position.Fresh`), the recorded transitions are a path to the stored state and
only active campaigns take forecasts (`Store.Lawful`, `Store.Follows`).
-/

namespace Shadow

open Fallible

/-- The transitions of a campaign from `draft` to a state. -/
inductive Path : List (CampaignState × CampaignState) → CampaignState → Prop
  | start : Path [] .draft
  | step {path : List (CampaignState × CampaignState)} {current target : CampaignState}
      (before : Path path current) (permitted : target ∈ current.permitted) :
      Path (path ++ [(current, target)]) target

theorem Path.of_append {path : List (CampaignState × CampaignState)}
    {last : CampaignState × CampaignState} {state : CampaignState}
    (h : Path (path ++ [last]) state) :
    Path path last.1 ∧ last.2 = state ∧ state ∈ last.1.permitted := by
  generalize hpath : path ++ [last] = whole at h
  cases h with
  | start => simp at hpath
  | step before permitted =>
      obtain ⟨rfl, hlast⟩ := List.append_inj' hpath rfl
      obtain rfl := (List.cons.inj hlast).1
      exact ⟨before, rfl, permitted⟩

namespace Store

variable {F : Type} [PyFloat F] {s s' : Store F}

/-- The recorded transitions of a campaign. -/
def path (s : Store F) (campaign : String) : List (CampaignState × CampaignState) :=
  (s.transitions.filter fun t => t.campaign = campaign).map fun t => (t.fromState, t.toState)

def batchesOf (s : Store F) (campaign : String) : List BatchRow :=
  s.batches.filter fun b => b.campaign = campaign

def forecastsOf (s : Store F) (campaign : String) : List (ForecastRow F) :=
  s.forecasts.filter fun f => f.campaign = campaign

/-! ## Statements -/

theorem insertCampaign_eq_ok {row : CampaignRow} (h : s.insertCampaign row = .ok s') :
    row.campaign ∉ s.campaigns.map CampaignRow.campaign ∧
      s' = { s with campaigns := s.campaigns ++ [row] } := by
  simp only [insertCampaign, bind_eq_ok_iff, refuseIf_eq_ok_iff, Except.ok.injEq] at h
  obtain ⟨-, hfresh, -, -, -, -, -, -, -, -, -, -, rfl⟩ := h
  exact ⟨hfresh, rfl⟩

theorem updateState_eq_ok {campaign : String} {state : CampaignState}
    (h : s.updateState campaign state = .ok s') :
    (∀ row ∈ s.campaigns, row.campaign = campaign → row.state ≠ .closed ∧ row.state ≠ .abandoned) ∧
      s' = { s with
        campaigns := Table.update CampaignRow.campaign campaign
          (fun row => { row with state := state }) s.campaigns } := by
  simp only [updateState, bind_eq_ok_iff, refuseIf_eq_ok_iff, Except.ok.injEq] at h
  obtain ⟨-, hopen, rfl⟩ := h
  refine ⟨fun row hrow hcampaign => ?_, rfl⟩
  by_contra hstate
  exact hopen ⟨row, hrow, hcampaign, by tauto⟩

theorem insertTransition_eq_ok {row : TransitionRow} (h : s.insertTransition row = .ok s') :
    (row.campaign ∈ s.campaigns.map CampaignRow.campaign ∧ isInstantText row.occurredAt = true) ∧
      s' = { s with transitions := s.transitions ++ [row] } := by
  simp only [insertTransition, bind_eq_ok_iff, refuseIf_eq_ok_iff, not_not, Bool.not_eq_false,
    Except.ok.injEq] at h
  obtain ⟨-, hcampaign, -, htext, rfl⟩ := h
  exact ⟨⟨hcampaign, htext⟩, rfl⟩

theorem insertBatch_eq_ok {row : BatchRow} (h : s.insertBatch row = .ok s') :
    (row.batchId ∉ s.batches.map BatchRow.batchId ∧
        (row.campaign, row.asOf) ∉ s.batches.map fun b => (b.campaign, b.asOf)) ∧
      row.campaign ∈ s.campaigns.map CampaignRow.campaign ∧
        (isInstantText row.asOf = true ∧ isInstantText row.sealedAt = true) ∧
          s' = { s with batches := s.batches ++ [row] } := by
  simp only [insertBatch, bind_eq_ok_iff, refuseIf_eq_ok_iff, not_not, not_or, Bool.not_eq_false,
    Except.ok.injEq] at h
  obtain ⟨-, hid, -, hinstant, -, hcampaign, -, -, -, htexts, -, -, rfl⟩ := h
  exact ⟨⟨hid, hinstant⟩, hcampaign, htexts, rfl⟩

/-- What the schema asks of the columns of a forecast. -/
def ForecastChecks (row : ForecastRow F) : Prop :=
  row.symbol.toList.length ≤ 24 ∧ isInstantText row.targetInstant = true ∧
    row.asOf < row.targetInstant

theorem insertForecast_eq_ok {row : ForecastRow F} (h : s.insertForecast row = .ok s') :
    (row.forecastId ∉ s.forecasts.map ForecastRow.forecastId ∧ ForecastChecks row) ∧
      s' = { s with forecasts := s.forecasts ++ [row] } := by
  simp only [insertForecast, bind_eq_ok_iff, refuseIf_eq_ok_iff, not_not, not_or, Bool.not_eq_false,
    Except.ok.injEq] at h
  obtain ⟨-, hid, -, -, -, -, -, -, -, hsymbol, -, htexts, -, -, -, -, -, hbefore, rfl⟩ := h
  exact ⟨⟨hid, hsymbol.2, htexts.2, hbefore⟩, rfl⟩

theorem insertForecasts_eq_ok {rows : List (ForecastRow F)}
    (h : s.insertForecasts rows = .ok s') :
    (∀ row ∈ rows, row.forecastId ∉ s.forecasts.map ForecastRow.forecastId ∧ ForecastChecks row) ∧
      (rows.map ForecastRow.forecastId).Nodup ∧
        s' = { s with forecasts := s.forecasts ++ rows } := by
  induction rows generalizing s with
  | nil =>
      obtain rfl := Except.ok.inj h
      exact ⟨nofun, List.nodup_nil, by simp⟩
  | cons row rows ih =>
      obtain ⟨s₁, hfirst, hrest⟩ := bind_eq_ok_iff.mp h
      obtain ⟨hrow, rfl⟩ := insertForecast_eq_ok hfirst
      obtain ⟨hrows, hnodup, rfl⟩ := ih hrest
      refine ⟨fun other hother => ?_, ?_, by simp⟩
      · rcases List.mem_cons.mp hother with rfl | hmem
        · exact hrow
        · obtain ⟨hid, hchecks⟩ := hrows other hmem
          rw [List.map_append, List.mem_append, not_or] at hid
          exact ⟨hid.1, hchecks⟩
      · rw [List.map_cons, List.nodup_cons]
        refine ⟨fun hmem => ?_, hnodup⟩
        obtain ⟨other, hother, heq⟩ := List.mem_map.mp hmem
        exact (hrows other hother).1 (heq ▸ by simp)

/-! ## Commits -/

/-- A campaign that moves keeps its name. -/
theorem names_update (campaign : String) (state : CampaignState) (rows : List CampaignRow) :
    (Table.update CampaignRow.campaign campaign (fun row => { row with state := state }) rows).map
      CampaignRow.campaign = rows.map CampaignRow.campaign :=
  Table.map_update fun _ => rfl

theorem transaction_cases (s : Store F) (body : Except ShadowError (Store F)) :
    (∃ e, s.transaction body = (.error e, s)) ∨
      ∃ s', s.transaction body = (.ok (), s') ∧ body = .ok s' := by
  unfold transaction
  cases body with
  | error e => exact .inl ⟨e, rfl⟩
  | ok s' => exact .inr ⟨s', rfl, rfl⟩

section Commits

variable [PyRuntime] [FloatText F]

/-- The stored rows and the schema let the rows of a batch in. -/
structure Admits (s : Store F) (batch : SealedBatch F) : Prop where
  identity : batch.batchId ∉ s.batches.map BatchRow.batchId
  instant : (batch.campaign, batch.asOf.encoded) ∉ s.batches.map fun b => (b.campaign, b.asOf)
  texts : isInstantText batch.asOf.encoded = true ∧ isInstantText batch.sealedAt.encoded = true
  forecasts : ∀ item ∈ batch.forecasts,
    item.forecastId ∉ s.forecasts.map ForecastRow.forecastId ∧
      ForecastChecks (forecastRow batch.batchId item)
  unique : (batch.forecasts.map ShadowForecast.forecastId).Nodup

/-- What the next step of a call can commit. -/
inductive Commit (s : Store F) : Position F → Store F → Prop
  | created {row : CampaignRow} (hfresh : row.campaign ∉ s.campaigns.map CampaignRow.campaign) :
      Commit s (.create row) { s with campaigns := s.campaigns ++ [{ row with state := .draft }] }
  | moved {campaign : String} {current target : CampaignState} {now : Instant}
      (hopen : ∀ row ∈ s.campaigns, row.campaign = campaign →
        row.state ≠ .closed ∧ row.state ≠ .abandoned)
      (hcampaign : campaign ∈ s.campaigns.map CampaignRow.campaign)
      (htext : isInstantText now.encoded = true) :
      Commit s (.moving campaign current target now)
        { s with
          campaigns := Table.update CampaignRow.campaign campaign
            (fun row => { row with state := target }) s.campaigns
          transitions := s.transitions ++ [⟨campaign, current, target, now.encoded⟩] }
  | inserted {batch : SealedBatch F} (hadmits : s.Admits batch)
      (hcampaign : batch.campaign ∈ s.campaigns.map CampaignRow.campaign) :
      Commit s (.inserting batch)
        { s with
          batches := s.batches ++ [batchRow batch]
          forecasts := s.forecasts ++ batch.forecasts.map (forecastRow batch.batchId) }

theorem insertRows_eq_ok {batch : SealedBatch F} (h : s.insertRows batch = .ok s') :
    s.Admits batch ∧ batch.campaign ∈ s.campaigns.map CampaignRow.campaign ∧
      s' = { s with
        batches := s.batches ++ [batchRow batch]
        forecasts := s.forecasts ++ batch.forecasts.map (forecastRow batch.batchId) } := by
  obtain ⟨s₁, hbatch, hforecasts⟩ := bind_eq_ok_iff.mp h
  obtain ⟨⟨hid, hinstant⟩, hcampaign, htexts, rfl⟩ := insertBatch_eq_ok hbatch
  obtain ⟨hrows, hnodup, rfl⟩ := insertForecasts_eq_ok hforecasts
  rw [List.map_map] at hnodup
  exact ⟨⟨hid, hinstant, htexts, fun item hitem => hrows _ (List.mem_map_of_mem hitem), hnodup⟩,
    hcampaign, rfl⟩

/-- A step leaves the tables alone or makes one commit. -/
theorem advance_cases (s : Store F) (position : Position F) :
    (s.advance position).2 = s ∨ Commit s position (s.advance position).2 := by
  cases position with
  | create row =>
      simp only [advance, createCampaign]
      split
      · exact .inl rfl
      · split
        · exact .inl rfl
        · rcases s.transaction_cases (s.insertCampaign { row with state := .draft }) with
            ⟨e, hrun⟩ | ⟨s', hrun, hbody⟩
          · rw [hrun]
            exact .inl rfl
          · obtain ⟨hfresh, rfl⟩ := insertCampaign_eq_ok hbody
            rw [hrun]
            exact .inr (.created hfresh)
  | transition campaign target now => exact .inl rfl
  | moving campaign current target now =>
      simp only [advance, move]
      rcases s.transaction_cases (s.updateState campaign target >>= fun s =>
        s.insertTransition ⟨campaign, current, target, now.encoded⟩) with
          ⟨e, hrun⟩ | ⟨s', hrun, hbody⟩
      · rw [hrun]
        exact .inl rfl
      · obtain ⟨s₁, hupdate, hinsert⟩ := bind_eq_ok_iff.mp hbody
        obtain ⟨hopen, rfl⟩ := updateState_eq_ok hupdate
        obtain ⟨⟨hcampaign, htext⟩, rfl⟩ := insertTransition_eq_ok hinsert
        rw [hrun]
        exact .inr (.moved hopen (names_update campaign target s.campaigns ▸ hcampaign) htext)
  | sealing batch => exact .inl rfl
  | checking batch => exact .inl rfl
  | inserting batch =>
      simp only [advance, insert]
      rcases s.transaction_cases (s.insertRows batch) with ⟨e, hrun⟩ | ⟨s', hrun, hbody⟩
      · rw [hrun]
        exact .inl rfl
      · obtain ⟨hadmits, hcampaign, rfl⟩ := insertRows_eq_ok hbody
        rw [hrun]
        exact .inr (.inserted hadmits hcampaign)

/-! ## What every schedule keeps -/

structure Sound (s : Store F) : Prop where
  campaigns : (s.campaigns.map CampaignRow.campaign).Nodup
  batches : (s.batches.map BatchRow.batchId).Nodup
  instants : (s.batches.map fun b => (b.campaign, b.asOf)).Nodup
  whole : ∀ b ∈ s.batches, ∃ batch : SealedBatch F, b = batchRow batch ∧
    s.forecasts.filter (fun f => f.batchId = b.batchId) =
      batch.forecasts.map (forecastRow batch.batchId)
  owned : ∀ f ∈ s.forecasts, ∃ b ∈ s.batches, f.batchId = b.batchId ∧ f.campaign = b.campaign
  sealed : ∀ b ∈ s.batches, b.campaign ∈ s.campaigns.map CampaignRow.campaign
  recorded : ∀ t ∈ s.transitions, t.campaign ∈ s.campaigns.map CampaignRow.campaign

theorem sound_empty : Sound ({} : Store F) :=
  ⟨List.nodup_nil, List.nodup_nil, List.nodup_nil, nofun, nofun, nofun, nofun⟩

theorem Sound.commit (h : s.Sound) {position : Position F} (hcommit : Commit s position s') :
    s'.Sound := by
  cases hcommit with
  | @created row hfresh =>
      refine ⟨?_, h.batches, h.instants, h.whole, h.owned, fun b hb => ?_, fun t ht => ?_⟩
      · rw [List.map_append]
        exact List.nodup_append.mpr ⟨h.campaigns, List.nodup_singleton _, fun a ha b hb heq =>
          hfresh (by rw [List.map_singleton, List.mem_singleton] at hb; rwa [← hb, ← heq])⟩
      · rw [List.map_append]
        exact List.mem_append_left _ (h.sealed b hb)
      · rw [List.map_append]
        exact List.mem_append_left _ (h.recorded t ht)
  | @moved campaign current target now hopen hcampaign htext =>
      have hnames := names_update campaign target s.campaigns
      refine ⟨hnames ▸ h.campaigns, h.batches, h.instants, h.whole, h.owned,
        fun b hb => hnames ▸ h.sealed b hb, fun t ht => ?_⟩
      rw [hnames]
      rcases List.mem_append.mp ht with hold | hnew
      · exact h.recorded t hold
      · rw [List.mem_singleton.mp hnew]
        exact hcampaign
  | @inserted batch hadmits hcampaign =>
      have hnew : ∀ b ∈ s.batches, b.batchId ≠ batch.batchId := fun b hb heq =>
        hadmits.identity (heq ▸ List.mem_map_of_mem hb)
      refine ⟨h.campaigns, ?_, ?_, fun b hb => ?_, fun f hf => ?_, fun b hb => ?_, h.recorded⟩
      · rw [List.map_append]
        exact List.nodup_append.mpr ⟨h.batches, List.nodup_singleton _, fun a ha b hb heq =>
          hadmits.identity (by rw [List.map_singleton, List.mem_singleton] at hb; rwa [heq, hb] at ha)⟩
      · rw [List.map_append]
        exact List.nodup_append.mpr ⟨h.instants, List.nodup_singleton _, fun a ha b hb heq =>
          hadmits.instant (by rw [List.map_singleton, List.mem_singleton] at hb; rwa [heq, hb] at ha)⟩
      · rcases List.mem_append.mp hb with hold | hlast
        · obtain ⟨other, hother, hfilter⟩ := h.whole b hold
          refine ⟨other, hother, ?_⟩
          rw [List.filter_append, hfilter, List.append_right_eq_self, List.filter_eq_nil_iff]
          intro f hf
          obtain ⟨item, -, rfl⟩ := List.mem_map.mp hf
          exact fun heq => hnew b hold (of_decide_eq_true heq).symm
        · obtain rfl := List.mem_singleton.mp hlast
          refine ⟨batch, rfl, ?_⟩
          have hnone : s.forecasts.filter (fun f => f.batchId = (batchRow batch).batchId) = [] := by
            rw [List.filter_eq_nil_iff]
            intro f hf
            obtain ⟨b, hb, hid, -⟩ := h.owned f hf
            rw [decide_eq_true_eq, hid]
            exact hnew b hb
          rw [List.filter_append, hnone, List.nil_append, List.filter_eq_self]
          intro f hf
          obtain ⟨item, -, rfl⟩ := List.mem_map.mp hf
          simp [forecastRow, batchRow]
      · rcases List.mem_append.mp hf with hold | hlast
        · obtain ⟨b, hb, hid, hname⟩ := h.owned f hold
          exact ⟨b, List.mem_append_left _ hb, hid, hname⟩
        · obtain ⟨item, hitem, rfl⟩ := List.mem_map.mp hlast
          exact ⟨batchRow batch, List.mem_append_right _ List.mem_cons_self, rfl,
            (batch.together item hitem).1⟩
      · rcases List.mem_append.mp hb with hold | hlast
        · exact h.sealed b hold
        · rw [List.mem_singleton.mp hlast]
          exact hcampaign

/-! ## What undisturbed calls keep -/

/-- What a call that is under way has checked. -/
def Checked : Position F → Prop
  | .moving _ current target _ => target ∈ current.permitted
  | _ => True

/-- A transaction finds the state that its call has read, or is refused: by the
trigger on closed and abandoned campaigns, or by the rows that are stored. -/
def Fresh (s : Store F) : Position F → Prop
  | .moving campaign current _ now =>
      isInstantText now.encoded = true → ∀ row ∈ s.campaigns, row.campaign = campaign →
        row.state ≠ .closed → row.state ≠ .abandoned → row.state = current
  | .inserting batch =>
      s.Admits batch → ∀ row ∈ s.campaigns, row.campaign = batch.campaign → row.state = .active
  | _ => True

/-- The recorded transitions lead to the stored states. -/
def Lawful (s : Store F) : Prop := ∀ row ∈ s.campaigns, Path (s.path row.campaign) row.state

/-- Campaigns move along a permitted transition or not at all, and only active
ones take forecasts. -/
structure Follows (s s' : Store F) : Prop where
  states : ∀ row ∈ s.campaigns, ∃ row' ∈ s'.campaigns, row'.campaign = row.campaign ∧
    (row'.state = row.state ∨ row'.state ∈ row.state.permitted)
  batches : ∀ b ∈ s'.batches, b ∈ s.batches ∨
    ∃ row ∈ s.campaigns, row.campaign = b.campaign ∧ row.state = .active
  forecasts : ∀ f ∈ s'.forecasts, f ∈ s.forecasts ∨
    ∃ row ∈ s.campaigns, row.campaign = f.campaign ∧ row.state = .active
  kept : ∀ row ∈ s.campaigns, row.state ≠ .active →
    s'.batchesOf row.campaign = s.batchesOf row.campaign ∧
      s'.forecastsOf row.campaign = s.forecastsOf row.campaign

omit [PyRuntime] [FloatText F] in
theorem Follows.refl (s : Store F) : s.Follows s :=
  ⟨fun row hrow => ⟨row, hrow, rfl, .inl rfl⟩, fun _ hb => .inl hb, fun _ hf => .inl hf,
    fun _ _ _ => ⟨rfl, rfl⟩⟩

/-- The row of a campaign. -/
theorem Sound.eq_of_campaign (h : s.Sound) {row row' : CampaignRow} (hrow : row ∈ s.campaigns)
    (hrow' : row' ∈ s.campaigns) (heq : row.campaign = row'.campaign) : row = row' :=
  Table.eq_of_key_eq h.campaigns hrow hrow' heq

theorem Lawful.commit (h : s.Lawful) (hsound : s.Sound) {position : Position F}
    (hcommit : Commit s position s') (hchecked : Checked position) (hfresh : s.Fresh position) :
    s'.Lawful := by
  cases hcommit with
  | @created row hnew =>
      intro other hother
      rcases List.mem_append.mp hother with hold | hlast
      · exact h other hold
      · have hnone : s.path row.campaign = [] := by
          simp only [path, List.map_eq_nil_iff, List.filter_eq_nil_iff, decide_eq_true_eq]
          exact fun t ht heq => hnew (heq ▸ hsound.recorded t ht)
        rw [List.mem_singleton.mp hlast]
        change Path (s.path row.campaign) .draft
        rw [hnone]
        exact .start
  | @moved campaign current target now hopen hcampaign htext =>
      intro other hother
      have hpath : ∀ name, path { s with
          campaigns := Table.update CampaignRow.campaign campaign
            (fun row => { row with state := target }) s.campaigns
          transitions := s.transitions ++ [⟨campaign, current, target, now.encoded⟩] } name =
            s.path name ++ if campaign = name then [(current, target)] else [] := by
        intro name
        by_cases heq : campaign = name <;> simp [path, heq]
      rw [hpath]
      rcases Table.mem_update.mp hother with ⟨hold, hne⟩ | ⟨row, hrow, rfl, rfl⟩
      · rw [if_neg (Ne.symm hne), List.append_nil]
        exact h other hold
      · obtain ⟨hclosed, habandoned⟩ := hopen row hrow rfl
        have hstate := hfresh htext row hrow rfl hclosed habandoned
        rw [if_pos rfl]
        exact .step (hstate ▸ h row hrow) hchecked
  | @inserted batch hadmits hcampaign => exact h

theorem Follows.of_commit (hsound : s.Sound) {position : Position F}
    (hcommit : Commit s position s') (hchecked : Checked position) (hfresh : s.Fresh position) :
    s.Follows s' := by
  cases hcommit with
  | @created row hnew =>
      exact ⟨fun other hother => ⟨other, List.mem_append_left _ hother, rfl, .inl rfl⟩,
        fun _ hb => .inl hb, fun _ hf => .inl hf, fun _ _ _ => ⟨rfl, rfl⟩⟩
  | @moved campaign current target now hopen hcampaign htext =>
      refine ⟨fun row hrow => ?_, fun _ hb => .inl hb, fun _ hf => .inl hf, fun _ _ _ => ⟨rfl, rfl⟩⟩
      by_cases heq : row.campaign = campaign
      · obtain ⟨hclosed, habandoned⟩ := hopen row hrow heq
        have hstate := hfresh htext row hrow heq hclosed habandoned
        exact ⟨{ row with state := target }, Table.mem_update.mpr (.inr ⟨row, hrow, heq, rfl⟩), rfl,
          .inr (hstate ▸ hchecked)⟩
      · exact ⟨row, Table.mem_update.mpr (.inl ⟨hrow, heq⟩), rfl, .inl rfl⟩
  | @inserted batch hadmits hcampaign =>
      obtain ⟨active, hactive, hname⟩ := List.mem_map.mp hcampaign
      have hstate := hfresh hadmits active hactive hname
      refine ⟨fun row hrow => ⟨row, hrow, rfl, .inl rfl⟩, fun b hb => ?_, fun f hf => ?_,
        fun row hrow hidle => ?_⟩
      · rcases List.mem_append.mp hb with hold | hlast
        · exact .inl hold
        · rw [List.mem_singleton.mp hlast]
          exact .inr ⟨active, hactive, hname, hstate⟩
      · rcases List.mem_append.mp hf with hold | hlast
        · exact .inl hold
        · obtain ⟨item, hitem, rfl⟩ := List.mem_map.mp hlast
          exact .inr ⟨active, hactive, hname.trans (batch.together item hitem).1.symm, hstate⟩
      · have hother : batch.campaign ≠ row.campaign := by
          intro heq
          obtain rfl := hsound.eq_of_campaign hactive hrow (hname.trans heq)
          exact hidle hstate
        refine ⟨?_, ?_⟩
        · simp [batchesOf, batchRow, hother]
        · rw [forecastsOf, forecastsOf, List.filter_append, List.append_right_eq_self,
            List.filter_eq_nil_iff]
          intro f hf
          obtain ⟨item, hitem, rfl⟩ := List.mem_map.mp hf
          rw [decide_eq_true_eq]
          exact fun heq => hother ((batch.together item hitem).1.symm.trans heq)

/-- The next position of a call is checked. -/
theorem checked_advance {position next : Position F} (h : (s.advance position).1 = .next next) :
    Checked next := by
  cases position with
  | create row =>
      simp only [advance, createCampaign] at h
      split at h
      · cases h
      · split at h
        · cases h
        · split at h <;> cases h
  | transition campaign target now =>
      simp only [advance, readState] at h
      split at h
      · cases h
      · next current _ =>
          unfold assertCampaignTransition at h
          by_cases hpermitted : target ∈ current.permitted
          · rw [if_pos hpermitted] at h
            cases h
            exact hpermitted
          · rw [if_neg hpermitted] at h
            split at h
            · cases h
            · next heq => split at heq <;> cases heq
  | moving campaign current target now =>
      simp only [advance, move] at h
      split at h <;> cases h
  | sealing batch =>
      simp only [advance, readActive] at h
      split at h
      · cases h
      · split at h
        · cases h
        · cases h
          trivial
  | checking batch =>
      simp only [advance, readBatch] at h
      split at h
      · cases h
        trivial
      · split at h <;> cases h
  | inserting batch =>
      simp only [advance, insert] at h
      split at h <;> cases h

end Commits

end Store

/-! ## Runs -/

namespace System

section Runs

variable [PyRuntime] {F : Type} [PyFloat F] [FloatText F] {sys : System F}

/-- The next transaction of an action finds the state that its call has read. -/
def Fresh (sys : System F) : Action F → Prop
  | .step index => ∀ position, sys.calls[index]? = some position → sys.store.Fresh position
  | _ => True

/-- Every action of a schedule is fresh where it is taken. -/
def FreshRun : System F → List (Action F) → Prop
  | _, [] => True
  | sys, action :: actions => sys.Fresh action ∧ FreshRun (sys.act action) actions

structure Kept (sys : System F) : Prop where
  sound : sys.store.Sound
  lawful : sys.store.Lawful
  checked : ∀ position ∈ sys.calls, Store.Checked position

theorem kept_empty : Kept ({} : System F) :=
  ⟨Store.sound_empty, nofun, nofun⟩

theorem Kept.act (h : sys.Kept) {action : Action F} (hfresh : sys.Fresh action) :
    (sys.act action).Kept ∧ sys.store.Follows (sys.act action).store := by
  cases action with
  | start call =>
      refine ⟨⟨h.sound, h.lawful, fun position hposition => ?_⟩, .refl _⟩
      rcases List.mem_append.mp hposition with hold | hnew
      · exact h.checked position hold
      · rw [List.mem_singleton.mp hnew]
        cases call <;> trivial
  | fail index =>
      exact ⟨⟨h.sound, h.lawful, fun position hposition =>
        h.checked position (List.mem_of_mem_eraseIdx hposition)⟩, .refl _⟩
  | step index =>
      cases hcall : sys.calls[index]? with
      | none =>
          simp only [System.act, hcall]
          exact ⟨h, .refl _⟩
      | some position =>
          have hchecked := h.checked position (List.mem_of_getElem? hcall)
          have hstore : (sys.act (.step index)).store = (sys.store.advance position).2 := by
            simp only [System.act, hcall]
            split <;> next heq => rw [heq]
          have hcalls : ∀ other ∈ (sys.act (.step index)).calls, Store.Checked other := by
            simp only [System.act, hcall]
            split
            · next next store heq =>
                intro other hother
                rcases List.mem_or_eq_of_mem_set hother with hold | rfl
                · exact h.checked other hold
                · exact Store.checked_advance (congrArg Prod.fst heq)
            · intro other hother
              exact h.checked other (List.mem_of_mem_eraseIdx hother)
          rcases sys.store.advance_cases position with hsame | hcommit
          · rw [hsame] at hstore
            refine ⟨⟨hstore ▸ h.sound, hstore ▸ h.lawful, hcalls⟩, ?_⟩
            rw [hstore]
            exact .refl _
          · rw [← hstore] at hcommit
            have hfound := hfresh position hcall
            exact ⟨⟨h.sound.commit hcommit, h.lawful.commit h.sound hcommit hchecked hfound, hcalls⟩,
              .of_commit h.sound hcommit hchecked hfound⟩

theorem Kept.run (h : sys.Kept) {actions : List (Action F)} (hfresh : FreshRun sys actions) :
    (sys.run actions).Kept := by
  induction actions generalizing sys with
  | nil => exact h
  | cons action actions ih => exact ih (h.act hfresh.1).1 hfresh.2

/-- A campaign that has left `active` stays so, with the forecasts it has. -/
theorem Kept.frozen (h : sys.Kept) {actions : List (Action F)} (hfresh : FreshRun sys actions)
    {row : CampaignRow} (hrow : row ∈ sys.store.campaigns) (hdraft : row.state ≠ .draft)
    (hactive : row.state ≠ .active) :
    (sys.run actions).store.batchesOf row.campaign = sys.store.batchesOf row.campaign ∧
      (sys.run actions).store.forecastsOf row.campaign = sys.store.forecastsOf row.campaign := by
  induction actions generalizing sys row with
  | nil => exact ⟨rfl, rfl⟩
  | cons action actions ih =>
      obtain ⟨hkept, hfollows⟩ := h.act hfresh.1
      obtain ⟨row', hrow', hname, hstate⟩ := hfollows.states row hrow
      have hleft : row'.state ≠ .draft ∧ row'.state ≠ .active := by
        rcases hstate with heq | hpermitted
        · exact ⟨heq ▸ hdraft, heq ▸ hactive⟩
        · cases hcurrent : row.state <;> simp_all [CampaignState.permitted] <;>
            rcases hpermitted with heq | heq <;> simp [heq]
      obtain ⟨hbatches, hforecasts⟩ := hfollows.kept row hrow hactive
      obtain ⟨hbatches', hforecasts'⟩ := ih hkept hfresh.2 hrow' hleft.1 hleft.2
      rw [hname] at hbatches' hforecasts'
      exact ⟨hbatches'.trans hbatches, hforecasts'.trans hforecasts⟩

/-- While transactions find the states that their calls have read, campaigns only
move forward and take forecasts while they are active. -/
theorem forward_only {actions : List (Action F)} (h : FreshRun {} actions) :
    (∀ row ∈ (run {} actions).store.campaigns,
      Path ((run {} actions).store.path row.campaign) row.state) ∧
    (∀ action, Fresh (run {} actions) action →
      (∀ b ∈ ((run {} actions).act action).store.batches, b ∈ (run {} actions).store.batches ∨
        ∃ row ∈ (run {} actions).store.campaigns, row.campaign = b.campaign ∧
          row.state = .active) ∧
      ∀ f ∈ ((run {} actions).act action).store.forecasts, f ∈ (run {} actions).store.forecasts ∨
        ∃ row ∈ (run {} actions).store.campaigns, row.campaign = f.campaign ∧
          row.state = .active) ∧
    (∀ later, FreshRun (run {} actions) later → ∀ row ∈ (run {} actions).store.campaigns,
      row.state ≠ .draft → row.state ≠ .active →
        ((run {} actions).run later).store.forecastsOf row.campaign =
          (run {} actions).store.forecastsOf row.campaign) ∧
    ((run {} actions).store.batches.map fun b => (b.campaign, b.asOf)).Nodup ∧
    ∀ b ∈ (run {} actions).store.batches, ∃ batch : SealedBatch F, b = batchRow batch ∧
      (run {} actions).store.forecasts.filter (fun f => f.batchId = b.batchId) =
        batch.forecasts.map (forecastRow batch.batchId) := by
  have hkept := kept_empty.run h
  refine ⟨hkept.lawful, fun action hfresh => ?_, fun later hlater row hrow hdraft hactive =>
    (hkept.frozen hlater hrow hdraft hactive).2, hkept.sound.instants, hkept.sound.whole⟩
  obtain ⟨-, hfollows⟩ := hkept.act hfresh
  exact ⟨hfollows.batches, hfollows.forecasts⟩

end Runs

/-! ## Two schedules -/

/-- The campaign of the schedules below. -/
def alpha : CampaignRow where
  campaign := "alpha"
  state := .draft
  horizonDays := 5
  classLabels := ["down", "up"]
  createdAt := "2026-01-02T00:00:00.000000Z"
  modelIdentity := String.ofList (List.replicate 64 'a')

def noon : Instant := ⟨.date 2026 1 2, 12, 0, 0, 0⟩

/-- Create the campaign and activate it. -/
def activation : List (Action ℚ) :=
  [.start (.create alpha), .step 0, .start (.transition "alpha" .active noon), .step 0, .step 0]

/-- Two calls activate the campaign and a third one seals it before the second
one's transaction. -/
def reopening : List (Action ℚ) :=
  [.start (.create alpha), .step 0, .start (.transition "alpha" .active noon),
    .start (.transition "alpha" .active noon), .step 0, .step 1, .step 0,
    .start (.transition "alpha" .sealed noon), .step 1, .step 1, .step 0]

/-- The campaign after its activation. -/
def activated : CampaignRow := { alpha with state := .active }

open Platform in
theorem forward_only_activation :
    Path ((run {} activation).store.path "alpha") .active := by
  have hfresh : FreshRun {} activation := by
    refine ⟨trivial, fun position hposition => ?_, trivial, fun position hposition => ?_,
      fun position hposition => ?_, trivial⟩
    · obtain rfl := Option.some.inj hposition
      trivial
    · obtain rfl := Option.some.inj hposition
      trivial
    · obtain rfl := Option.some.inj hposition
      intro _ row hrow _ _ _
      obtain rfl := List.mem_singleton.mp hrow
      rfl
  have hrow : activated ∈ (run {} activation).store.campaigns := by decide
  exact (forward_only hfresh).1 activated hrow

open Platform in
/-- The second activation leads a sealed campaign back to `active`. -/
theorem reopened :
    (activated ∈ (run {} reopening).store.campaigns ∧
      (run {} reopening).store.path "alpha" =
        [(.draft, .active), (.active, .sealed), (.draft, .active)]) ∧
      ¬ ∀ row ∈ (run {} reopening).store.campaigns,
        Path ((run {} reopening).store.path row.campaign) row.state := by
  have hrow : activated ∈ (run {} reopening).store.campaigns := by decide
  have hpath : (run {} reopening).store.path "alpha" =
      [(.draft, .active), (.active, .sealed)] ++ [(.draft, .active)] := by decide
  refine ⟨⟨hrow, hpath⟩, fun hlawful => ?_⟩
  have hactivated : Path ((run {} reopening).store.path "alpha") .active := hlawful activated hrow
  rw [hpath] at hactivated
  obtain ⟨hbefore, -⟩ := hactivated.of_append
  have hsealed : Path ([(.draft, .active)] ++ [(.active, .sealed)]) .draft := hbefore
  cases hsealed.of_append.2.1

end System

end Shadow
