import NexusQuant.Market.VenueOrders

/-!
# The replies of the venue

What a remote call can come to, for any fate of its messages: a request that reads, an order request,
a lookup under a label, a cancellation.
-/

namespace NexusQuant.Market

open Execution Fallible

section Replies

variable {world : VenueWorld} {v v' : Venue} {call : ℕ} {request : VenueRequest}
  {r : Except DeribitOrderError JsValue}

/-- The result of one remote call, and the venue after it. -/
inductive Reply (world : VenueWorld) (call : ℕ) (request : VenueRequest) (v : Venue) :
    Except DeribitOrderError JsValue → Venue → Prop
  | lost (e : DeribitOrderError) (hcode : e.rpcCode = none) : Reply world call request v (.error e) v
  | held (e : DeribitOrderError) (hcode : e.rpcCode = none) :
      Reply world call request v (.error e) (v.hold call request)
  | cutOff (fate : Fate) (e : DeribitOrderError) (hcode : e.rpcCode = none) :
      Reply world call request v (.error e) (v.receive world call fate request).2
  | answered (fate : Fate) (value : JsValue)
      (hanswer : (v.receive world call fate request).1 = .ok value) :
      Reply world call request v (.ok value) (v.receive world call fate request).2
  | refused (fate : Fate) (e : DeribitOrderError) (refusal : ℤ × String)
      (hrefusal : (v.receive world call fate request).1 = .error refusal)
      (hcode : e.rpcCode.isSome) :
      Reply world call request v (.error e) (v.receive world call fate request).2

/-- The result of a private call: without a token nothing is sent, and a refusal may be retried. -/
inductive PrivateReply (world : VenueWorld) (call : ℕ) (request : VenueRequest) :
    Venue → Except DeribitOrderError JsValue → Venue → Prop
  | unsent (v : Venue) (e : DeribitOrderError) : PrivateReply world call request v (.error e) v
  | sent {v v' : Venue} {r : Except DeribitOrderError JsValue}
      (hreply : Reply world call request v r v') :
      PrivateReply world call request v r v'
  | again {v v₁ v' : Venue} {e : DeribitOrderError} {r : Except DeribitOrderError JsValue}
      (hreply : Reply world call request v (.error e) v₁)
      (hcode : e.rpcCode.isSome) (hrest : PrivateReply world call request v₁ r v') :
      PrivateReply world call request v r v'

theorem rpc_reply (request : VenueRequest) (s : TransportState) :
    (rpc world request s).2.history = s.history ∧
      Reply world s.history.length request s.venue (rpc world request s).1
        (rpc world request s).2.venue := by
  unfold rpc
  dsimp only
  split
  · exact ⟨rfl, .lost _ rfl⟩
  · exact ⟨rfl, .held _ rfl⟩
  · split
    · exact ⟨rfl, .cutOff _ _ rfl⟩
    · split
      · rename_i hanswer
        exact ⟨rfl, .answered _ _ hanswer⟩
      · rename_i hrefusal
        exact ⟨rfl, .refused _ _ _ hrefusal rfl⟩

/-! ### Requests that only read -/

/-- Requests that change nothing at the venue. -/
def VenueRequest.Reads : VenueRequest → Prop
  | .place _ _ _ _ | .cancel _ => False
  | _ => True

theorem Reply.of_reads (hreads : request.Reads) (h : Reply world call request v r v') :
    v' = v ∧ ∀ value, r = .ok value →
      ∃ fate, (v.receive world call fate request).1 = .ok value := by
  have hreceive : ∀ fate, (v.receive world call fate request).2 = v := by
    intro fate
    cases request with
    | getInstrument | auth | orderStateByLabel =>
        unfold Venue.receive
        dsimp only
        split <;> rfl
    | tradesByOrder =>
        unfold Venue.receive
        dsimp only
        split <;> rfl
    | place | cancel => exact hreads.elim
  have hhold : v.hold call request = v := by
    cases request with
    | place | cancel => exact hreads.elim
    | getInstrument | auth | orderStateByLabel | tradesByOrder => rfl
  cases h with
  | lost e => exact ⟨rfl, fun _ h => nomatch h⟩
  | held e => exact ⟨hhold, fun _ h => nomatch h⟩
  | cutOff fate e => exact ⟨hreceive fate, fun _ h => nomatch h⟩
  | refused fate e => exact ⟨hreceive fate, fun _ h => nomatch h⟩
  | answered fate value hanswer =>
      refine ⟨hreceive fate, ?_⟩
      rintro _ ⟨⟩
      exact ⟨fate, hanswer⟩

theorem PrivateReply.of_reads (hreads : request.Reads) (h : PrivateReply world call request v r v') :
    v' = v ∧ ∀ value, r = .ok value →
      ∃ fate, (v.receive world call fate request).1 = .ok value := by
  induction h with
  | unsent => exact ⟨rfl, fun _ h => nomatch h⟩
  | sent hreply => exact hreply.of_reads hreads
  | again hreply hcode hrest ih =>
      obtain ⟨rfl, -⟩ := hreply.of_reads hreads
      exact ih

theorem token_frame (s : TransportState) :
    (token world s).2.history = s.history ∧ (token world s).2.venue = s.venue := by
  unfold token
  split
  · exact ⟨rfl, rfl⟩
  · have hrpc := @rpc_reply world .auth s
    have hvenue := (hrpc.2.of_reads (by trivial)).1
    split
    · rename_i heq
      rw [heq] at hrpc hvenue
      exact ⟨hrpc.1, hvenue⟩
    · rename_i heq
      rw [heq] at hrpc hvenue
      dsimp only
      split
      · split
        · exact ⟨hrpc.1, hvenue⟩
        · exact ⟨hrpc.1, hvenue⟩
      · exact ⟨hrpc.1, hvenue⟩

theorem authorizedRpc_reply (request : VenueRequest) (s : TransportState) :
    (authorizedRpc world request s).2.history = s.history ∧
      ((∃ e, (authorizedRpc world request s).1 = .error e ∧
          (authorizedRpc world request s).2.venue = s.venue) ∨
        Reply world s.history.length request s.venue (authorizedRpc world request s).1
          (authorizedRpc world request s).2.venue) := by
  have htoken := @token_frame world s
  unfold authorizedRpc
  split
  · rename_i e s' heq
    rw [heq] at htoken
    exact ⟨htoken.1, .inl ⟨e, rfl, htoken.2⟩⟩
  · rename_i s' heq
    rw [heq] at htoken
    obtain ⟨hhistory, hvenue⟩ : s'.history = s.history ∧ s'.venue = s.venue := htoken
    have hrpc := @rpc_reply world request s'
    rw [hhistory, hvenue] at hrpc
    exact ⟨hrpc.1, .inr hrpc.2⟩

/-- The frame and the result of a private call. -/
theorem privateRpc_reply {s s' : TransportState} (h : privateRpc world request s = (r, s')) :
    s'.history = s.history ∧
      PrivateReply world s.history.length request s.venue r s'.venue := by
  have hfirst := @authorizedRpc_reply world request s
  unfold privateRpc at h
  split at h
  · rename_i e s₁ heq
    rw [heq] at hfirst
    obtain ⟨hhistory, hreply⟩ : s₁.history = s.history ∧ _ := hfirst
    by_cases hcode : e.rpcCode = some rpcUnauthorized
    · rw [if_pos hcode] at h
      have hagain := @authorizedRpc_reply world request { s₁ with accessToken := none }
      rw [h] at hagain
      obtain ⟨hhistory', hreply'⟩ := hagain
      refine ⟨hhistory'.trans hhistory, ?_⟩
      -- Whatever the second attempt comes to starts from the venue the first one left.
      have hsecond : PrivateReply world s.history.length request s₁.venue r s'.venue := by
        rw [← hhistory]
        rcases hreply' with ⟨e', rfl, hvenue⟩ | hreply'
        · rw [show s'.venue = s₁.venue from hvenue]
          exact .unsent _ _
        · exact .sent hreply'
      rcases hreply with ⟨-, -, hvenue⟩ | hreply
      · rw [show s₁.venue = s.venue from hvenue] at hsecond
        exact hsecond
      · exact .again hreply (by rw [hcode]; rfl) hsecond
    · rw [if_neg hcode] at h
      cases h
      refine ⟨hhistory, ?_⟩
      rcases hreply with ⟨-, -, hvenue⟩ | hreply
      · rw [show s'.venue = s.venue from hvenue]
        exact .unsent _ _
      · exact .sent hreply
  · rw [h] at hfirst
    obtain ⟨hhistory, ⟨e, rfl, hvenue⟩ | hreply⟩ := hfirst
    · refine ⟨hhistory, ?_⟩
      rw [show s'.venue = s.venue from hvenue]
      exact .unsent _ _
    · exact ⟨hhistory, .sent hreply⟩

/-! ### Order requests -/

/-- What a placement comes to, and the venue after it: an error of the venue leaves the venue as it
was, any other leaves open whether it was reached. -/
inductive Submitted (world : VenueWorld) (call : ℕ) (label : String) (v : Venue) :
    Except DeribitOrderError VenueOrderOutcome → Venue → Prop
  | unplaced (e : DeribitOrderError) : Submitted world call label v (.error e) v
  | held (e : DeribitOrderError) (hcode : e.rpcCode = none) :
      Submitted world call label v (.error e) { v with inFlight := v.inFlight ++ [⟨call, label⟩] }
  | unheard (e : DeribitOrderError) (hcode : e.rpcCode = none) (state : String)
      (trades : List VenueTrade) :
      Submitted world call label v (.error e) (v.accept call label state trades)
  | placed (state : String) (trades : List VenueTrade) :
      Submitted world call label v
        (.ok ⟨state, world.idText v.orders.length, sortTrades (tradesOf state trades)⟩)
        (v.accept call label state trades)

theorem parseOrderOutcome_orderJson {state venueOrderId endpoint : String} {trades : List VenueTrade}
    {outcome : VenueOrderOutcome}
    (h : parseOrderOutcome (.obj [("order", orderJson state venueOrderId),
      ("trades", .arr (trades.map tradeJson))]) endpoint = .ok outcome) :
    outcome = ⟨state, venueOrderId, sortTrades trades⟩ := by
  unfold parseOrderOutcome at h
  split at h
  · cases h
  · rename_i orderState id hread
    have hr := readOrder_orderJson (show readOrder (orderJson state venueOrderId) = _ from hread)
    obtain ⟨parsed, hparsed, rfl⟩ := map_eq_ok.mp h
    have htrades := parseTrades_tradeJson
      (show parseTrades (.arr (trades.map tradeJson)) endpoint = _ from hparsed)
    cases hr
    rw [htrades]

section Place

variable {side : OrderSide} {name label : String} {amount : ℚ}

/-- The answer to an order that is executed. -/
def placedJson (world : VenueWorld) (v : Venue) (state : String) (trades : List VenueTrade) : JsValue :=
  .obj [("order", orderJson state (world.idText v.orders.length)),
    ("trades", .arr ((tradesOf state trades).map tradeJson))]

theorem receive_place (fate : Fate) :
    v.receive world call fate (.place side name amount label) =
      match fate.refusal with
      | some refusal => (.error refusal, v)
      | none =>
          (.ok (placedJson world v fate.orderState fate.trades),
            v.accept call label fate.orderState fate.trades) := rfl

/-- An order is executed once, or an error says that it may not have been; an error of the venue says
that it has not. -/
theorem PrivateReply.of_place
    (h : PrivateReply world call (.place side name amount label) v r v') :
    (∃ e, r = .error e ∧
      (v' = v ∨ e.rpcCode = none ∧ v' = v.hold call (.place side name amount label))) ∨
    ∃ state trades, v' = v.accept call label state trades ∧
      (r = .ok (placedJson world v state trades) ∨ ∃ e, r = .error e ∧ e.rpcCode = none) := by
  have hrefused : ∀ {v : Venue} {fate : Fate} {refusal : ℤ × String},
      (v.receive world call fate (.place side name amount label)).1 = .error refusal →
      (v.receive world call fate (.place side name amount label)).2 = v := by
    intro v fate refusal hrefusal
    rw [receive_place] at hrefusal ⊢
    split at hrefusal
    · rfl
    · cases hrefusal
  induction h with
  | unsent v e => exact .inl ⟨e, rfl, .inl rfl⟩
  | sent hreply =>
      cases hreply with
      | lost e hcode => exact .inl ⟨e, rfl, .inl rfl⟩
      | held e hcode => exact .inl ⟨e, rfl, .inr ⟨hcode, rfl⟩⟩
      | refused fate e refusal hrefusal hcode => exact .inl ⟨e, rfl, .inl (hrefused hrefusal)⟩
      | cutOff fate e hcode =>
          rw [receive_place]
          split
          · exact .inl ⟨e, rfl, .inl rfl⟩
          · exact .inr ⟨_, _, rfl, .inr ⟨e, rfl, hcode⟩⟩
      | answered fate value hanswer =>
          rw [receive_place] at hanswer ⊢
          split at hanswer
          · cases hanswer
          · cases hanswer
            exact .inr ⟨_, _, rfl, .inl rfl⟩
  | again hreply hcode hrest ih =>
      -- Only a refusal is retried.
      cases hreply with
      | lost e hnone | held e hnone | cutOff fate e hnone =>
          rw [hnone] at hcode
          cases hcode
      | refused fate e refusal hrefusal =>
          rw [hrefused hrefusal] at ih
          exact ih

end Place

theorem submitOrder_spec {order : Order} {instrument : VenueInstrument} {amount : ℚ}
    {s s' : TransportState} {r : Except DeribitOrderError VenueOrderOutcome}
    (h : submitOrder world order instrument amount s = (r, s')) :
    s'.history = s.history ∧
      Submitted world s.history.length (venueLabel order.orderId) s.venue r s'.venue := by
  unfold submitOrder at h
  dsimp only at h
  generalize hreply : privateRpc world (.place order.side instrument.instrumentName amount
    (venueLabel order.orderId)) s = reply at h
  obtain ⟨answer, s₁⟩ := reply
  obtain ⟨hhistory, hprivate⟩ := privateRpc_reply hreply
  cases answer with
  | error e =>
      cases h
      refine ⟨hhistory, ?_⟩
      rcases hprivate.of_place with ⟨e', he, hvenue⟩ | ⟨state, trades, hvenue, hanswer⟩
      · cases he
        rcases hvenue with hvenue | ⟨hcode, hvenue⟩
        · rw [hvenue]
          exact .unplaced e
        · rw [hvenue]
          exact .held e hcode
      · rcases hanswer with hok | ⟨e', he, hcode⟩
        · cases hok
        · cases he
          rw [hvenue]
          exact .unheard e hcode state trades
  | ok value =>
      rcases hprivate.of_place with ⟨e', he, -⟩ | ⟨state, trades, hvenue, hanswer⟩
      · cases he
      have hvalue : value = placedJson world s.venue state trades := by
        rcases hanswer with hok | ⟨e', he, -⟩
        · exact Except.ok.inj hok
        · cases he
      subst hvalue
      obtain ⟨hr, rfl⟩ := Prod.mk.inj h
      refine ⟨hhistory, ?_⟩
      rw [hvenue]
      cases r with
      | error e => exact .unheard e (parseOrderOutcome_error hr) state trades
      | ok outcome =>
          rw [parseOrderOutcome_orderJson hr]
          exact .placed state trades

/-! ### Lookups -/

/-- The lookup lists the orders under the label; a listing that is empty says that there is none. -/
theorem lookUp_spec {order : Order} {instrument : VenueInstrument} {s s' : TransportState}
    (h : lookUp world order instrument s = (r, s')) :
    s'.history = s.history ∧ s'.venue = s.venue ∧ ∀ listing, r = .ok listing →
      (firstListed listing = none →
        ∀ o ∈ s.venue.orders, o.label ≠ venueLabel order.orderId) ∧
      ∀ first, firstListed listing = some first →
        ∃ o ∈ s.venue.orders, first = orderJson o.state (world.idText o.id) := by
  obtain ⟨hhistory, hprivate⟩ := privateRpc_reply h
  obtain ⟨hvenue, hanswer⟩ := hprivate.of_reads (by trivial)
  refine ⟨hhistory, hvenue, ?_⟩
  rintro listing rfl
  obtain ⟨fate, hlisting⟩ := hanswer listing rfl
  simp only [Venue.receive] at hlisting
  split at hlisting
  · cases hlisting
  · cases hlisting
    have hmem : ∀ o, o ∈ fate.listing (s.venue.orders.filter fun o =>
        o.label = venueLabel order.orderId) ↔
        o ∈ s.venue.orders ∧ o.label = venueLabel order.orderId := by
      intro o
      rw [(fate.listing_perm _).mem_iff, List.mem_filter, decide_eq_true_eq]
    generalize fate.listing _ = listed at hmem ⊢
    cases listed with
    | nil =>
        refine ⟨fun _ o ho hlabel => ?_, fun first h => nomatch h⟩
        exact List.not_mem_nil ((hmem o).mpr ⟨ho, hlabel⟩)
    | cons o rest =>
        refine ⟨(fun h => nomatch h), ?_⟩
        rintro first ⟨⟩
        exact ⟨o, ((hmem o).mp List.mem_cons_self).1, rfl⟩

/-- The trades of an order as the venue lists them. -/
theorem tradesByOrder_spec {o : VenueOrder} {n : ℕ} {s s' : TransportState}
    (hv : s.venue.Sound n) (ho : o ∈ s.venue.orders)
    (h : privateRpc world (.tradesByOrder (world.idText o.id)) s = (r, s')) :
    s'.history = s.history ∧ s'.venue = s.venue ∧
      ∀ raw, r = .ok raw → raw = .arr (o.trades.map tradeJson) := by
  obtain ⟨hhistory, hprivate⟩ := privateRpc_reply h
  obtain ⟨hvenue, hanswer⟩ := hprivate.of_reads (by trivial)
  refine ⟨hhistory, hvenue, ?_⟩
  rintro raw rfl
  obtain ⟨fate, hraw⟩ := hanswer raw rfl
  simp only [Venue.receive, hv.find?_eq world ho] at hraw
  split at hraw
  · cases hraw
  · rename_i o' _ heq
    cases heq
    exact (Except.ok.inj hraw).symm
  · rename_i heq
    cases heq

theorem recoverByLabel_spec {order : Order} {instrument : VenueInstrument} {n : ℕ}
    {s s' : TransportState} {r : Except DeribitOrderError (Option VenueOrderOutcome)}
    (hv : s.venue.Sound n) (h : recoverByLabel world order instrument s = (r, s')) :
    s'.history = s.history ∧ s'.venue = s.venue ∧
      (r = .ok none → ∀ o ∈ s.venue.orders, o.label ≠ venueLabel order.orderId) ∧
      ∀ outcome, r = .ok (some outcome) → ∃ o ∈ s.venue.orders, ∃ listing s₁ first,
        lookUp world order instrument s = (.ok listing, s₁) ∧ s₁.venue = s.venue ∧
        firstListed listing = some first ∧
        readOrder first = some (o.state, world.idText o.id) ∧
        outcome = ⟨o.state, world.idText o.id, sortTrades o.trades⟩ := by
  unfold recoverByLabel at h
  generalize hlookup : lookUp world order instrument s = answer at h
  obtain ⟨listed, s₁⟩ := answer
  obtain ⟨hhistory, hvenue, hlisting⟩ := lookUp_spec hlookup
  cases listed with
  | error e =>
      cases h
      exact ⟨hhistory, hvenue, (fun h => nomatch h), fun _ h => nomatch h⟩
  | ok listing =>
      obtain ⟨hnone, hsome⟩ := hlisting listing rfl
      dsimp only at h
      split at h
      · rename_i hfirst
        cases h
        exact ⟨hhistory, hvenue, (fun _ => hnone hfirst), fun _ h => nomatch h⟩
      · rename_i first hfirst
        obtain ⟨o, ho, rfl⟩ := hsome first hfirst
        split at h
        · cases h
          exact ⟨hhistory, hvenue, (fun h => nomatch h), fun _ h => nomatch h⟩
        · rename_i state id hread
          obtain ⟨rfl, rfl⟩ := Prod.mk.inj (readOrder_orderJson hread)
          generalize htrades : privateRpc world (.tradesByOrder (world.idText o.id)) s₁ = reply at h
          obtain ⟨raw, s₂⟩ := reply
          obtain ⟨hhistory₂, hvenue₂, hraw⟩ :=
            tradesByOrder_spec (hvenue ▸ hv) (hvenue ▸ ho) htrades
          cases raw with
          | error e =>
              cases h
              exact ⟨hhistory₂.trans hhistory, hvenue₂.trans hvenue, (fun h => nomatch h),
                fun _ h => nomatch h⟩
          | ok raw =>
              obtain ⟨hr, rfl⟩ := Prod.mk.inj h
              refine ⟨hhistory₂.trans hhistory, hvenue₂.trans hvenue, ?_, ?_⟩
              · intro hnil
                obtain ⟨trades, -, htrades⟩ := map_eq_ok.mp (hr.trans hnil)
                cases htrades
              · intro outcome houtcome
                obtain ⟨trades, hparsed, hsome⟩ := map_eq_ok.mp (hr.trans houtcome)
                cases hsome
                rw [hraw raw rfl] at hparsed
                refine ⟨o, ho, listing, s₁, _, rfl, hvenue, hfirst, hread, ?_⟩
                rw [parseTrades_tradeJson hparsed]

/-! ### Cancellations -/

/-- The cancellation of an order changes nothing else, and one that is answered ends it. -/
theorem Reply.of_cancel {o : VenueOrder} {n : ℕ} (hv : v.Sound n) (ho : o ∈ v.orders)
    (h : Reply world call (.cancel (world.idText o.id)) v r v') :
    ∃ f, Venue.Grows f ∧ v' = v.update o.id f ∧ (r.isOk → (f o).state ≠ "open") := by
  have hreceive : ∀ fate : Fate,
      ∃ f, Venue.Grows f ∧
        (v.receive world call fate (.cancel (world.idText o.id))).2 = v.update o.id f ∧
        ∀ value, (v.receive world call fate (.cancel (world.idText o.id))).1 = .ok value →
          (f o).state ≠ "open" := by
    intro fate
    have htraded := Venue.grows_tradeOn fate.meanwhile
    simp only [Venue.receive, hv.find?_eq world ho]
    split
    · refine ⟨_, htraded, rfl, ?_⟩
      intro value h
      cases h
    · by_cases hopen : o.state = "open"
      · rw [if_pos hopen]
        refine ⟨_, Venue.grows_close.comp htraded, Venue.update_update htraded, fun _ _ => ?_⟩
        show (VenueOrder.close (o.tradeOn fate.meanwhile)).state ≠ "open"
        rw [VenueOrder.tradeOn, if_pos hopen, VenueOrder.close, if_pos hopen]
        show "cancelled" ≠ "open"
        decide
      · rw [if_neg hopen]
        refine ⟨_, htraded, rfl, ?_⟩
        intro value h
        cases h
  cases h with
  | lost e | held e =>
      refine ⟨_, Venue.grows_id, (Venue.update_id o.id).symm, ?_⟩
      intro h
      cases h
  | cutOff fate e | refused fate e =>
      obtain ⟨f, hf, hvenue, -⟩ := hreceive fate
      refine ⟨f, hf, hvenue, ?_⟩
      intro h
      cases h
  | answered fate value hanswer =>
      obtain ⟨f, hf, hvenue, hstate⟩ := hreceive fate
      exact ⟨f, hf, hvenue, fun _ => hstate value hanswer⟩

theorem PrivateReply.of_cancel {i n : ℕ} (h : PrivateReply world call (.cancel (world.idText i)) v r v')
    (hv : v.Sound n) {o : VenueOrder} (ho : o ∈ v.orders) (hid : o.id = i) :
    ∃ f, Venue.Grows f ∧ v' = v.update i f ∧ (r.isOk → (f o).state ≠ "open") := by
  induction h generalizing o with
  | unsent v e => exact ⟨_, Venue.grows_id, (Venue.update_id i).symm, fun h => nomatch h⟩
  | sent hreply =>
      subst hid
      exact hreply.of_cancel hv ho
  | again hreply hcode hrest ih =>
      subst hid
      obtain ⟨f, hf, rfl, -⟩ := hreply.of_cancel hv ho
      have ho' : f o ∈ (Venue.update _ o.id f).orders :=
        List.mem_map.mpr ⟨o, ho, if_pos rfl⟩
      obtain ⟨g, hg, hvenue, hstate⟩ := ih (hv.update hf) ho' (hf.id_eq o)
      exact ⟨g ∘ f, hg.comp hf, hvenue.trans (Venue.update_update hf), hstate⟩

end Replies

end NexusQuant.Market
