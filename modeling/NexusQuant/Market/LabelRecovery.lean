import NexusQuant.Market.VenueReplies

/-!
# What a call knows of its own order

Every call of `place` sends at most one order that the venue executes.  A stream should carry the
trades of that order, and an error of the venue or an empty lookup should mean that there is none.
The order is found again under its label, which calls with the same order share, and what the venue
says of it is not read again once it has been cancelled.
-/

namespace NexusQuant.Market

open Execution Fallible

/-- The call threw on an error of the venue, or after an empty lookup. -/
def PlaceEnd.NothingExecuted : PlaceEnd → Prop
  | .stream _ => False
  | .threw site e => e.rpcCode.isSome ∨ site = .emptyLookup

def PlaceEnd.isStream : PlaceEnd → Bool
  | .stream _ => true
  | .threw _ _ => false

/-- What the end of call `n` says is so at the venue. -/
def CallOk (v : Venue) (n : ℕ) (ending : PlaceEnd) : Prop :=
  (∀ events, ending = .stream events →
    ∃ o, v.ofCall n = [o] ∧ fillTexts events = (sortTrades o.trades).map tradeText) ∧
  (ending.NothingExecuted → ∀ o ∈ v.ofCall n, o.trades = [])

section Conditions

variable (cfg : TransportConfig) (world : VenueWorld)

/-- The order that is listed first to the lookup of a call, when the call comes to one and the answer
reaches it. -/
def listedFirst (order : Order) (s : TransportState) : Option VenueOrder :=
  match routeOrder cfg world order s with
  | (.error _, _) => none
  | (.ok (instrument, amount), s) =>
      match submitOrder world order instrument amount s with
      | (.ok _, _) => none
      | (.error e, s) =>
          if e.rpcCode.isSome then none
          else
            match lookUp world order instrument s with
            | (.error _, _) => none
            | (.ok listing, s) =>
                (firstListed listing).bind fun first =>
                  (readOrder first).bind fun r => s.venue.find? world r.2

/-- A call that looks its order up is shown its own order first. -/
def RecoversOwn (order : Order) (s : TransportState) : Prop :=
  ∀ o, listedFirst cfg world order s = some o → o.call = s.history.length

/-- An order that is cancelled does not trade while it is, and has no trades when the venue answers
the cancellation with an error. -/
def CancelsQuietly (order : Order) (s : TransportState) : Prop :=
  match settleOrder cfg world order s with
  | (.failed _ _, _) => True
  | (.outcome outcome, s) =>
      let r := privateRpc world (.cancel outcome.venueOrderId) s
      outcome.orderState = "open" →
        ∀ o o', s.venue.find? world outcome.venueOrderId = some o →
          r.2.venue.find? world outcome.venueOrderId = some o' →
            match r.1 with
            | .ok _ => o'.trades = o.trades
            | .error e => e.rpcCode.isSome → o'.trades = []

/-- No order arrives with trades, or trades, for a call that has ended as if there were none. -/
def OnTime (s : TransportState) : VenueMove → Prop
  | .arrive i state trades =>
      ∀ request, s.venue.inFlight[i]? = some request → tradesOf state trades ≠ [] →
        ∀ ending, s.history[request.call]? = some ending → ¬ending.NothingExecuted
  | .trade id _ trades =>
      ∀ o ∈ s.venue.orders, o.id = id → o.state = "open" → trades ≠ [] →
        ∀ ending, s.history[o.call]? = some ending → ¬ending.NothingExecuted

def Undisturbed (s : TransportState) : TransportEvent → Prop
  | .call order => RecoversOwn cfg world order s ∧ CancelsQuietly cfg world order s
  | .move m => OnTime s m

end Conditions

/-! ## One call -/

section Place

variable {cfg : TransportConfig} {world : VenueWorld} {order : Order} {s s' : TransportState}

/-- What call `n` leaves of the venue before it. -/
structure Venue.Frame (v v' : Venue) (n : ℕ) : Prop where
  sound : v'.Sound (n + 1)
  others : ∀ k, k ≠ n → v'.ofCall k = v.ofCall k

theorem Venue.Frame.trans {v v' v'' : Venue} {n : ℕ} (h : v.Frame v' n) (h' : v'.Frame v'' n) :
    v.Frame v'' n :=
  ⟨h'.sound, fun k hk => (h'.others k hk).trans (h.others k hk)⟩

/-- A request of a new call is the only one of its call. -/
theorem Venue.Sound.calls_cons {v : Venue} {n : ℕ} (hv : v.Sound n) :
    (n :: v.calls).Nodup ∧ ∀ c ∈ n :: v.calls, c < n + 1 := by
  constructor
  · exact List.nodup_cons.mpr ⟨fun h => Nat.lt_irrefl n (hv.calls_lt n h), hv.calls_nodup⟩
  · rw [List.forall_mem_cons]
    exact ⟨Nat.lt_succ_self n, fun c hc => Nat.lt_succ_of_lt (hv.calls_lt c hc)⟩

theorem Submitted.frame {call : ℕ} {label : String} {v v' : Venue}
    {r : Except DeribitOrderError VenueOrderOutcome} (hv : v.Sound call)
    (h : Submitted world call label v r v') : v.Frame v' call := by
  have haccept : ∀ (state : String) (trades : List VenueTrade),
      v.Frame (v.accept call label state trades) call := fun state trades =>
    ⟨(hv.mono (Nat.le_succ call)).accept rfl hv.calls_cons.1 hv.calls_cons.2,
      fun k hk => Venue.ofCall_accept_of_ne (Ne.symm hk)⟩
  cases h with
  | unplaced e => exact ⟨hv.mono (Nat.le_succ call), fun _ _ => rfl⟩
  | held e hcode =>
      have hcalls : ({ v with inFlight := v.inFlight ++ [⟨call, label⟩] } : Venue).calls.Perm
          (call :: v.calls) := by
        show (_ ++ List.map _ (v.inFlight ++ [_])).Perm _
        rw [List.map_append, ← List.append_assoc]
        exact List.perm_append_singleton _ _
      refine ⟨⟨hv.ids, hcalls.nodup_iff.mpr hv.calls_cons.1, ?_, hv.rejected⟩, fun _ _ => rfl⟩
      exact fun c hc => hv.calls_cons.2 c (hcalls.mem_iff.mp hc)
  | unheard e hcode state trades => exact haccept state trades
  | placed state trades => exact haccept state trades

/-- What is known of a new order after the placement. -/
theorem Submitted.own {call : ℕ} {label : String} {v v' : Venue}
    {r : Except DeribitOrderError VenueOrderOutcome} (hv : v.Sound call)
    (h : Submitted world call label v r v') :
    (∀ outcome, r = .ok outcome → ∃ o ∈ v'.orders, o.call = call ∧
      outcome = ⟨o.state, world.idText o.id, sortTrades o.trades⟩) ∧
    ∀ e, r = .error e → ∀ o ∈ v'.ofCall call, e.rpcCode = none ∧ o.label = label := by
  have hnone : ∀ o, o ∉ v.ofCall call := by
    intro o
    rw [hv.ofCall_fresh]
    exact List.not_mem_nil
  cases h with
  | unplaced e | held e hcode =>
      refine ⟨(fun _ h => nomatch h), ?_⟩
      rintro _ ⟨⟩ o ho
      exact absurd ho (hnone o)
  | unheard e hcode state trades =>
      refine ⟨(fun _ h => nomatch h), ?_⟩
      rintro _ ⟨⟩ o ho
      obtain ⟨hmem, hcall⟩ := Venue.mem_ofCall.mp ho
      rcases List.mem_append.mp hmem with hold | hnew
      · exact absurd (Venue.mem_ofCall.mpr ⟨hold, hcall⟩) (hnone o)
      · rw [List.mem_singleton.mp hnew]
        exact ⟨hcode, rfl⟩
  | placed state trades =>
      refine ⟨?_, fun _ h => nomatch h⟩
      rintro _ ⟨⟩
      exact ⟨_, List.mem_append_right _ List.mem_cons_self, rfl, rfl⟩

theorem instrument_frame {name : String} {r : Except DeribitOrderError VenueInstrument}
    (h : instrument world name s = (r, s')) : s'.history = s.history ∧ s'.venue = s.venue := by
  unfold instrument at h
  split at h
  · cases h
    exact ⟨rfl, rfl⟩
  · have hrpc := @rpc_reply world (.getInstrument name) s
    have hvenue := (hrpc.2.of_reads (by trivial)).1
    split at h
    · rename_i heq
      cases h
      rw [heq] at hrpc hvenue
      exact ⟨hrpc.1, hvenue⟩
    · rename_i heq
      rw [heq] at hrpc hvenue
      split at h
      · cases h
        exact ⟨hrpc.1, hvenue⟩
      · cases h
        exact ⟨hrpc.1, hvenue⟩

theorem routeOrder_frame {r : Except DeribitOrderError (VenueInstrument × ℚ)}
    (h : routeOrder cfg world order s = (r, s')) :
    s'.history = s.history ∧ s'.venue = s.venue := by
  unfold routeOrder at h
  split at h
  · cases h
    exact ⟨rfl, rfl⟩
  · split at h
    · rename_i hinstrument
      cases h
      exact instrument_frame hinstrument
    · rename_i hinstrument
      cases h
      exact instrument_frame hinstrument

/-- What `place` takes for its order is its order; where it takes it that there is none, there is
none. -/
structure Settles (world : VenueWorld) (s s' : TransportState) (r : Settled) : Prop where
  history : s'.history = s.history
  frame : s.venue.Frame s'.venue s.history.length
  found : ∀ outcome, r = .outcome outcome → ∃ o ∈ s'.venue.orders, o.call = s.history.length ∧
    outcome = ⟨o.state, world.idText o.id, sortTrades o.trades⟩
  missing : ∀ site e, r = .failed site e → e.rpcCode.isSome ∨ site = .emptyLookup →
    s'.venue.ofCall s.history.length = []

/-- The recovery after a placement that is in doubt: its order, if there is one, stands under the
label, and it is the one that is listed first. -/
theorem recoverByLabel_settles {instrument : VenueInstrument} {e : DeribitOrderError}
    {r : Except DeribitOrderError (Option VenueOrderOutcome)} {s₂ : TransportState}
    (hhistory : s₂.history = s.history) (hframe : s.venue.Frame s₂.venue s.history.length)
    (hcode : ¬e.rpcCode.isSome)
    (hlabel : ∀ o ∈ s₂.venue.ofCall s.history.length, o.label = venueLabel order.orderId)
    (hown : ∀ listing s₃ first state id, lookUp world order instrument s₂ = (.ok listing, s₃) →
      firstListed listing = some first → readOrder first = some (state, id) →
      ∀ o, s₃.venue.find? world id = some o → o.call = s.history.length)
    (h : recoverByLabel world order instrument s₂ = (r, s')) :
    Settles world s s' (match r with
      | .error _ => .failed .unknown e
      | .ok none => .failed .emptyLookup e
      | .ok (some outcome) => .outcome outcome) := by
  obtain ⟨hhistory', hvenue, hempty, hfound⟩ := recoverByLabel_spec hframe.sound h
  have hframe' : s.venue.Frame s'.venue s.history.length := by
    rw [hvenue]
    exact hframe
  refine ⟨hhistory'.trans hhistory, hframe', ?_, ?_⟩
  · intro outcome houtcome
    match r with
    | .error _ | .ok none => cases houtcome
    | .ok (some outcome') =>
        cases houtcome
        obtain ⟨o, ho, listing, s₃, first, hlookup, hvenue₃, hfirst, hread, heq⟩ := hfound outcome rfl
        rw [hvenue]
        refine ⟨o, ho, hown listing s₃ first _ _ hlookup hfirst hread o ?_, heq⟩
        rw [hvenue₃]
        exact hframe.sound.find?_eq world ho
  · intro site e' hfailed hcase
    match r with
    | .error _ =>
        cases hfailed
        exact hcase.elim (fun hsome => absurd hsome hcode) fun hsite => nomatch hsite
    | .ok (some _) => cases hfailed
    | .ok none =>
        -- Its order would have been listed.
        rw [hvenue]
        refine List.eq_nil_iff_forall_not_mem.mpr fun o ho => ?_
        exact hempty rfl o (Venue.mem_ofCall.mp ho).1 (hlabel o ho)

theorem settleOrder_spec {r : Settled} (hv : s.venue.Sound s.history.length)
    (hown : RecoversOwn cfg world order s) (h : settleOrder cfg world order s = (r, s')) :
    Settles world s s' r := by
  unfold RecoversOwn listedFirst at hown
  unfold settleOrder at h
  generalize hroute : routeOrder cfg world order s = routed at h hown
  obtain ⟨route, s₁⟩ := routed
  obtain ⟨hhistory₁, hvenue₁⟩ := routeOrder_frame hroute
  cases route with
  | error e =>
      cases h
      refine ⟨hhistory₁, ?_, (fun _ h => nomatch h), fun _ _ _ _ => ?_⟩
      · rw [hvenue₁]
        exact ⟨hv.mono (Nat.le_succ _), fun _ _ => rfl⟩
      · rw [hvenue₁]
        exact hv.ofCall_fresh
  | ok route =>
      obtain ⟨instrument, amount⟩ := route
      dsimp only at h hown
      generalize hsubmit : submitOrder world order instrument amount s₁ = submitted at h hown
      obtain ⟨answer, s₂⟩ := submitted
      obtain ⟨hhistory₂, hsubmitted⟩ := submitOrder_spec hsubmit
      rw [hhistory₁, hvenue₁] at hsubmitted
      rw [hhistory₁] at hhistory₂
      have hframe := hsubmitted.frame hv
      obtain ⟨hplaced, hfailed⟩ := hsubmitted.own hv
      cases answer with
      | ok outcome =>
          cases h
          refine ⟨hhistory₂, hframe, ?_, fun _ _ h => nomatch h⟩
          rintro _ ⟨⟩
          exact hplaced outcome rfl
      | error e =>
          have hlabel := hfailed e rfl
          dsimp only at h hown
          by_cases hcode : e.rpcCode.isSome
          · rw [if_pos hcode] at h
            cases h
            refine ⟨hhistory₂, hframe, (fun _ h => nomatch h), fun _ _ _ _ => ?_⟩
            refine List.eq_nil_iff_forall_not_mem.mpr fun o ho => ?_
            rw [(hlabel o ho).1] at hcode
            cases hcode
          · rw [if_neg hcode] at h hown
            generalize hrecover : recoverByLabel world order instrument s₂ = recovered at h
            obtain ⟨recovery, s₃⟩ := recovered
            have hfirst : ∀ listing s₃ first state id,
                lookUp world order instrument s₂ = (.ok listing, s₃) →
                firstListed listing = some first → readOrder first = some (state, id) →
                ∀ o, s₃.venue.find? world id = some o → o.call = s.history.length := by
              intro listing s₃ first state id hlookup hfirst hread o ho
              rw [hlookup] at hown
              dsimp only at hown
              rw [hfirst, Option.bind_some, hread, Option.bind_some] at hown
              exact hown o ho
            have hsettles := recoverByLabel_settles hhistory₂ hframe hcode
              (fun o ho => (hlabel o ho).2) hfirst hrecover
            match recovery with
            | .error _ | .ok none | .ok (some _) =>
                cases h
                exact hsettles

/-- What the end of a call says, and that the order of a stream trades no more. -/
def Kept (v : Venue) (n : ℕ) (ending : PlaceEnd) : Prop :=
  CallOk v n ending ∧ ∀ events, ending = .stream events → ∀ o ∈ v.ofCall n, o.state ≠ "open"

theorem Kept.congr {v v' : Venue} {n : ℕ} {ending : PlaceEnd} (h : Kept v n ending)
    (heq : v'.ofCall n = v.ofCall n) : Kept v' n ending := by
  unfold Kept CallOk at h ⊢
  rw [heq]
  exact h

theorem kept_of_not_nothingExecuted {v : Venue} {n : ℕ} {site : PlaceSite} {e : DeribitOrderError}
    (h : ¬(PlaceEnd.threw site e).NothingExecuted) : Kept v n (.threw site e) :=
  ⟨⟨(fun _ h => nomatch h), fun hend => absurd hend h⟩, fun _ h => nomatch h⟩

/-- A stream that is built of what has become of an order. -/
theorem kept_streamOf {v : Venue} {n : ℕ} {o : VenueOrder} {outcome : VenueOrderOutcome}
    (hv : v.Sound (n + 1)) (ho : o ∈ v.orders) (hcall : o.call = n) (hopen : o.state ≠ "open")
    (htrades : outcome.trades = sortTrades o.trades)
    (hrejected : outcome.orderState = "rejected" → o.trades = []) :
    Kept v n (streamOf order outcome) := by
  have hof : v.ofCall n = [o] := hcall ▸ hv.ofCall_eq ho
  unfold streamOf
  generalize hbuild : buildEvents order outcome = built
  cases built with
  | error e =>
      refine kept_of_not_nothingExecuted ?_
      rintro (hsome | hsite)
      · rw [buildEvents_error hbuild] at hsome
        cases hsome
      · cases hsite
  | ok events =>
      refine ⟨⟨?_, fun h => h.elim⟩, ?_⟩
      · rintro _ ⟨⟩
        refine ⟨o, hof, ?_⟩
        rw [fillTexts_buildEvents hbuild, htrades]
        split
        · rename_i hstate
          rw [hrejected hstate]
          rfl
        · rfl
      · rintro _ - o' ho'
        rw [hof] at ho'
        rw [List.mem_singleton.mp ho']
        exact hopen

theorem finishOrder_spec {n : ℕ} {o : VenueOrder} {outcome : VenueOrderOutcome} {ending : PlaceEnd}
    (hv : s.venue.Sound (n + 1)) (ho : o ∈ s.venue.orders) (hcall : o.call = n)
    (houtcome : outcome = ⟨o.state, world.idText o.id, sortTrades o.trades⟩)
    (hquiet : outcome.orderState = "open" → ∀ o o', s.venue.find? world outcome.venueOrderId = some o →
      (privateRpc world (.cancel outcome.venueOrderId) s).2.venue.find? world outcome.venueOrderId =
        some o' →
      match (privateRpc world (.cancel outcome.venueOrderId) s).1 with
      | .ok _ => o'.trades = o.trades
      | .error e => e.rpcCode.isSome → o'.trades = [])
    (h : finishOrder world order outcome s = (ending, s')) :
    s'.history = s.history ∧ s.venue.Frame s'.venue n ∧ Kept s'.venue n ending := by
  have hrejected : o.state = "rejected" → o.trades = [] := hv.rejected o ho
  subst houtcome
  unfold finishOrder at h
  dsimp only at h hquiet
  by_cases hopen : o.state = "open"
  · rw [if_pos hopen] at h
    have hquiet := hquiet hopen
    generalize hcancel : privateRpc world (.cancel (world.idText o.id)) s = reply at h hquiet
    obtain ⟨r, s₁⟩ := reply
    obtain ⟨hhistory, hprivate⟩ := privateRpc_reply hcancel
    obtain ⟨f, hf, hvenue, hclosed⟩ := hprivate.of_cancel hv ho rfl
    have hsound : s₁.venue.Sound (n + 1) := by
      rw [hvenue]
      exact hv.update hf
    have hmem : f o ∈ s₁.venue.orders := by
      rw [hvenue]
      exact List.mem_map.mpr ⟨o, ho, if_pos rfl⟩
    have hframe : s.venue.Frame s₁.venue n := by
      refine ⟨hsound, fun k hk => ?_⟩
      rw [hvenue]
      refine Venue.ofCall_update_eq hf fun o' ho' hid => ?_
      -- An order with this number is the order of this call.
      obtain ⟨hmem', hcall'⟩ := Venue.mem_ofCall.mp ho'
      rw [hv.id_inj hmem' ho hid] at hcall'
      exact absurd (hcall'.symm.trans hcall) hk
    have hfind : s₁.venue.find? world (world.idText o.id) = some (f o) := by
      rw [← hf.id_eq o]
      exact hsound.find?_eq world hmem
    have hown : s₁.venue.ofCall n = [f o] := by
      rw [← hcall, ← hf.call_eq o]
      exact hsound.ofCall_eq hmem
    have htrades := hquiet o (f o) (hv.find?_eq world ho) hfind
    cases r with
    | error e =>
        cases h
        refine ⟨hhistory, hframe, ⟨⟨(fun _ h => nomatch h), ?_⟩, fun _ h => nomatch h⟩⟩
        rintro (hsome | hsite) o' ho'
        · rw [hown] at ho'
          rw [List.mem_singleton.mp ho']
          exact htrades hsome
        · cases hsite
    | ok value =>
        cases h
        refine ⟨hhistory, hframe, kept_streamOf hsound hmem ?_ (hclosed rfl) ?_ ?_⟩
        · rw [hf.call_eq o, hcall]
        · show sortTrades o.trades = _
          rw [show (f o).trades = o.trades from htrades]
        · intro hstate
          exact absurd (show "cancelled" = "rejected" from hstate) (by decide)
  · rw [if_neg hopen] at h
    cases h
    exact ⟨rfl, ⟨hv, fun _ _ => rfl⟩, kept_streamOf hv ho hcall hopen rfl hrejected⟩

theorem place_spec {ending : PlaceEnd} (hv : s.venue.Sound s.history.length)
    (hown : RecoversOwn cfg world order s) (hquiet : CancelsQuietly cfg world order s)
    (h : place cfg world order s = (ending, s')) :
    s'.history = s.history ∧ s.venue.Frame s'.venue s.history.length ∧
      Kept s'.venue s.history.length ending := by
  unfold CancelsQuietly at hquiet
  unfold place at h
  generalize hsettle : settleOrder cfg world order s = settled at h hquiet
  obtain ⟨known, s₁⟩ := settled
  have hsettles := settleOrder_spec hv hown hsettle
  cases known with
  | failed site e =>
      cases h
      refine ⟨hsettles.history, hsettles.frame, ⟨(fun _ h => nomatch h), ?_⟩, fun _ h => nomatch h⟩
      intro hend o ho
      rw [hsettles.missing site e rfl hend] at ho
      exact absurd ho List.not_mem_nil
  | outcome outcome =>
      obtain ⟨o, ho, hcall, houtcome⟩ := hsettles.found outcome rfl
      obtain ⟨hhistory', hframe', hkept⟩ :=
        finishOrder_spec hsettles.frame.sound ho hcall houtcome hquiet h
      exact ⟨hhistory'.trans hsettles.history, hsettles.frame.trans hframe', hkept⟩

end Place

/-! ## Runs -/

section Runs

variable {cfg : TransportConfig} {world : VenueWorld} {s : TransportState}

structure Recorded (s : TransportState) : Prop where
  sound : s.venue.Sound s.history.length
  kept : ∀ n ending, s.history[n]? = some ending → Kept s.venue n ending

theorem Recorded.call {order : Order} (hs : Recorded s) (hown : RecoversOwn cfg world order s)
    (hquiet : CancelsQuietly cfg world order s) :
    Recorded (transportStep cfg world s (.call order)) := by
  generalize hplace : place cfg world order s = r
  obtain ⟨ending, s'⟩ := r
  obtain ⟨-, hframe, hkept⟩ := place_spec hs.sound hown hquiet hplace
  have hstep : transportStep cfg world s (.call order) =
      { s' with history := s.history ++ [ending] } := by
    rw [transportStep, hplace]
  rw [hstep]
  constructor
  · show s'.venue.Sound (s.history ++ [ending]).length
    rw [List.length_append]
    exact hframe.sound
  · intro n e hn
    show Kept s'.venue n e
    by_cases hlt : n < s.history.length
    · rw [List.getElem?_append_left hlt] at hn
      exact (hs.kept n e hn).congr (hframe.others n (Nat.ne_of_lt hlt))
    · have hlen : n < (s.history ++ [ending]).length := (List.getElem?_eq_some_iff.mp hn).1
      rw [List.length_append, List.length_singleton] at hlen
      obtain rfl : n = s.history.length := by omega
      rw [List.getElem?_concat_length] at hn
      cases hn
      exact hkept

/-- A request that arrives late becomes the order of a call that has ended with its fate unknown. -/
theorem Recorded.arrive {i : ℕ} {state : String} {trades : List VenueTrade} (hs : Recorded s)
    (htime : OnTime s (.arrive i state trades)) :
    Recorded { s with venue := s.venue.move (.arrive i state trades) } := by
  unfold Venue.move
  dsimp only
  split
  · rename_i request hrequest
    generalize hw : ({ s.venue with inFlight := s.venue.inFlight.eraseIdx i } : Venue) = w
    have horders : w.orders = s.venue.orders := by rw [← hw]
    have hof : ∀ k, w.ofCall k = s.venue.ofCall k := fun k => by rw [← hw]; rfl
    have hperm : (request.call :: w.calls).Perm s.venue.calls := by
      obtain ⟨hlt, hget⟩ := List.getElem?_eq_some_iff.mp hrequest
      have hflight := (List.getElem_cons_eraseIdx_perm hlt).map OrderRequest.call
      rw [hget, List.map_cons] at hflight
      rw [← hw]
      exact List.perm_middle.symm.trans (hflight.append_left _)
    have hnodup : (request.call :: w.calls).Nodup := hperm.nodup_iff.mpr hs.sound.calls_nodup
    constructor
    · exact hs.sound.accept horders hnodup fun c hc => hs.sound.calls_lt c (hperm.mem_iff.mp hc)
    · intro n ending hn
      by_cases hcall : request.call = n
      · subst hcall
        have hnone : s.venue.ofCall request.call = [] := by
          rw [← hof]
          exact Venue.ofCall_eq_nil (List.nodup_cons.mp hnodup).1
        cases ending with
        | stream events =>
            obtain ⟨o, ho, -⟩ := (hs.kept _ _ hn).1.1 events rfl
            rw [hnone] at ho
            cases ho
        | threw site e =>
            by_cases htrades : tradesOf state trades = []
            · refine ⟨⟨(fun _ h => nomatch h), fun _ o ho => ?_⟩, fun _ h => nomatch h⟩
              rw [Venue.ofCall_accept, hof, hnone, htrades] at ho
              rw [List.mem_singleton.mp ho]
            · exact kept_of_not_nothingExecuted (htime request hrequest htrades _ hn)
      · exact (hs.kept n ending hn).congr ((Venue.ofCall_accept_of_ne hcall).trans (hof n))
  · exact hs

theorem Recorded.trade {id : ℕ} {state : String} {trades : List VenueTrade} (hs : Recorded s)
    (htime : OnTime s (.trade id state trades)) :
    Recorded { s with venue := s.venue.move (.trade id state trades) } := by
  unfold Venue.move
  dsimp only
  generalize hf : (fun o : VenueOrder => if o.state = "open" ∧ state ≠ "rejected" then
    { o with state := state, trades := o.trades ++ trades } else o) = f
  have hgrows : Venue.Grows f := by
    subst hf
    constructor
    · intro o
      split <;> rfl
    · intro o
      split <;> rfl
    · intro o ho
      exact if_neg fun h => ho h.1
    · intro o ho
      split
      · rename_i h
        exact h.2
      · rw [ho]
        decide
  constructor
  · exact hs.sound.update hgrows
  · intro n ending hn
    have hkept := hs.kept n ending hn
    cases ending with
    | stream events =>
        refine hkept.congr (Venue.ofCall_update_eq hgrows fun o ho _ => ?_)
        exact hgrows.of_not_open o (hkept.2 events rfl o ho)
    | threw site e =>
        refine ⟨⟨(fun _ h => nomatch h), fun hend o' ho' => ?_⟩, fun _ h => nomatch h⟩
        rw [Venue.ofCall_update hgrows] at ho'
        obtain ⟨o, ho, rfl⟩ := List.mem_map.mp ho'
        have hnil : o.trades = [] := hkept.1.2 hend o ho
        obtain ⟨hmem, hcall⟩ := Venue.mem_ofCall.mp ho
        by_cases hid : o.id = id
        · rw [if_pos hid, ← hf]
          dsimp only
          split
          · rename_i hopen
            by_cases htrades : trades = []
            · rw [htrades, hnil]
              rfl
            · exact absurd hend (htime o hmem hid hopen.1 htrades _ (hcall ▸ hn))
          · exact hnil
        · rw [if_neg hid]
          exact hnil

/-- In a run in which the lookups show a call its own order, cancelled orders do not trade on, and
nothing arrives with trades, or trades, after its call has ended as if there were nothing, every stream
carries the trades of the order of its call, and no call that ended on an error of the venue or on an
empty lookup has executed anything. -/
theorem undisturbed_calls_ok (cfg : TransportConfig) (world : VenueWorld)
    (events : List TransportEvent)
    (h : Run.RunMeets (transportStep cfg world) (Undisturbed cfg world) newTransport events)
    (n : ℕ) (ending : PlaceEnd)
    (hn : (Run.run (transportStep cfg world) newTransport events).history[n]? = some ending) :
    CallOk (Run.run (transportStep cfg world) newTransport events).venue n ending := by
  have hstep : ∀ s e, Recorded s → Undisturbed cfg world s e →
      Recorded (transportStep cfg world s e) := by
    intro s e hs hcond
    cases e with
    | call order => exact hs.call hcond.1 hcond.2
    | move m =>
        cases m with
        | arrive i state trades => exact hs.arrive hcond
        | trade id state trades => exact hs.trade hcond
  have hnew : Recorded newTransport := by
    refine ⟨⟨rfl, List.nodup_nil, (fun _ h => nomatch h), fun _ h => nomatch h⟩, ?_⟩
    intro n ending h
    cases h
  exact ((Run.run_invariant hstep hnew h).kept n ending hn).1

end Runs

/-! ### Two runs -/

def Settled.state? : Settled → Option String
  | .outcome known => some known.orderState
  | .failed _ _ => none

/-- A venue that answers every request and executes an order at once. -/
def promptFate : Fate where
  arrival := .received
  refusal := none
  failure := none
  answer := .obj [("contract_size", .num (.fin 1)), ("min_trade_amount", .num (.fin 1)),
    ("quote_currency", .str "USDC"), ("settlement_currency", .str "USDC"), ("is_active", .bool true),
    ("access_token", .str "token"), ("expires_in", .num (.fin 900))]
  orderState := "filled"
  trades := [⟨1, 100, 1⟩]
  meanwhile := []
  listing orders := orders
  listing_perm _ := .refl _

/-- Everything goes well but for remote call `n`. -/
def worldBut (n : ℕ) (fate : Fate) : VenueWorld where
  fate k := if k = n then fate else promptFate
  clockBefore _ := .fin 0
  clockAfter _ := .fin 0
  idText k := String.ofList (List.replicate (k + 1) '1')
  idText_injective := by
    intro i k h
    have hlength := congrArg List.length (String.ofList_injective h)
    simpa using hlength

def bitcoinConfig : TransportConfig := ⟨[("BTC", "BTC_USDC-PERPETUAL")]⟩

def bitcoinOrder : Order where
  orderId := "00000000000000aa"
  intentId := "i-1"
  symbol := "BTC"
  side := .buy
  qty := "1.00000000"
  price := "100.00000000"
  brokerId := "deribit"
  lineage := ⟨none, "sv", "fs", "dq", "dh", "fh", "s1", 1, "i-1", "1.00", []⟩

/-- The reply to the placement of the first call times out. -/
def unheardWorld : VenueWorld := worldBut 3 { promptFate with failure := some "timeout" }

/-- The placement of the second call does not reach the venue. -/
def lostWorld : VenueWorld := worldBut 4 { promptFate with arrival := .lost }

/-- A call whose reply was lost finds its order under the label. -/
theorem undisturbed_calls_ok_unheard :
    CallOk (Run.run (transportStep bitcoinConfig unheardWorld) newTransport [.call bitcoinOrder]).venue
      0 (place bitcoinConfig unheardWorld bitcoinOrder newTransport).1 := by
  have hlisted : listedFirst bitcoinConfig unheardWorld bitcoinOrder newTransport =
      some ⟨0, "nx-00000000000000aa", 0, "filled", [⟨1, 100, 1⟩]⟩ := by decide +kernel
  have hstate : (settleOrder bitcoinConfig unheardWorld bitcoinOrder newTransport).1.state? =
      some "filled" := by decide +kernel
  have hown : RecoversOwn bitcoinConfig unheardWorld bitcoinOrder newTransport := by
    intro o ho
    rw [hlisted] at ho
    cases ho
    rfl
  have hquiet : CancelsQuietly bitcoinConfig unheardWorld bitcoinOrder newTransport := by
    unfold CancelsQuietly
    split
    · trivial
    · rename_i heq
      rw [heq] at hstate
      intro _ hopen
      have hfilled := Option.some.inj hstate
      rw [hopen] at hfilled
      exact absurd hfilled (by decide)
  exact undisturbed_calls_ok bitcoinConfig unheardWorld [.call bitcoinOrder] ⟨⟨hown, hquiet⟩, trivial⟩
    0 _ rfl

/-- The placement of a repeated order is lost, and its call returns the fills of the first one. -/
theorem repeated_order_returns_earlier_fills :
    ¬∀ (cfg : TransportConfig) (world : VenueWorld) (events : List TransportEvent) (n : ℕ)
      (ending : PlaceEnd), (Run.run (transportStep cfg world) newTransport events).history[n]? =
        some ending →
      CallOk (Run.run (transportStep cfg world) newTransport events).venue n ending := by
  intro h
  have hcall := h bitcoinConfig lostWorld [.call bitcoinOrder, .call bitcoinOrder] 1
  have hstream : ((Run.run (transportStep bitcoinConfig lostWorld) newTransport
      [.call bitcoinOrder, .call bitcoinOrder]).history[1]?).any PlaceEnd.isStream := by
    decide +kernel
  have hnone : (Run.run (transportStep bitcoinConfig lostWorld) newTransport
      [.call bitcoinOrder, .call bitcoinOrder]).venue.ofCall 1 = [] := by decide +kernel
  obtain ⟨ending, hending, hstream⟩ := (Option.any_eq_true _ _).mp hstream
  cases ending with
  | stream fills =>
      obtain ⟨o, ho, -⟩ := (hcall _ hending).1 fills rfl
      rw [hnone] at ho
      cases ho
  | threw site e => cases hstream

end NexusQuant.Market
