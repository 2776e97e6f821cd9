import IotAgent.Rest.CbCommunicator

/-!
The callback of an asynchronous request to the broker (`receive_event` and `async_send` in
`src/rest/iot_cb_comm.cc`).

A request that is answered, or that fails, calls its callback. An answer 502 raises an alarm
only, and so does an exception before the request is sent.

* `CompletesOnce`: one call, with the last answer of all attempts or else with an error;
* `ReportsLast`: one call, with what came of the last attempt;
* `Last`: the number of the last attempt;
* `asyncSend_run`: the calls are those of the last attempt;
* `completesOnce_iff`: when the callback is called as it should be.
-/

namespace IotAgent

namespace ContextBrokerCommunicator

/-- What is reported of the requests to the broker. -/
def completions (messages : List Message) : List Completion :=
  messages.filterMap fun message => match message with
    | .broker _ completion => some completion
    | .identity _ _ => none

/-- The call is with the answer. -/
def CalledWith (response : CbResponse) (call : String × ℤ) : Prop :=
  call = (response.content, response.statusCode)

/-- The call is with the code of an error among these. -/
def CalledWithError (reported : List Completion) (call : String × ℤ) : Prop :=
  ∃ completion ∈ reported, completion.error ≠ 0 ∧ call.2 = -(completion.error : ℤ)

/-- The callback is called once, with the last answer that was received, or with an error if
there was none. -/
def CompletesOnce (run : AsyncRun) : Prop :=
  ∃ call, run.calls = [call] ∧
    match ((completions run.messages).filterMap received).getLast? with
    | some response => CalledWith response call
    | none => CalledWithError (completions run.messages) call

/-- The callback is called once, with the answer to the last request, or with its error. -/
def ReportsLast (run : AsyncRun) : Prop :=
  ∃ call, run.calls = [call] ∧ ∃ completion, (completions run.messages).getLast? = some completion ∧
    match received completion with
    | some response => CalledWith response call
    | none => CalledWithError [completion] call

variable (op : Operation) (info : AdditionalInfo) (net : ℕ → Network)

/-- Another attempt follows the one of the number. -/
def Retried (n : ℕ) : Prop :=
  Repeated op ReceivesAgain info net n

/-- The last attempt. -/
def Last (n : ℕ) : Prop :=
  (∀ m < n, Retried op info net m) ∧ ¬ Retried op info net n

/-- The attempt ends with an answer other than 502. -/
def Answered (n : ℕ) : Prop :=
  ∃ completion response, reportAt op info net n = some completion ∧
    received completion = some response ∧ response.statusCode ≠ Types.responseCodeBadGateway

/-- The attempt ends with an error. -/
def Fails (n : ℕ) : Prop :=
  ∃ completion, reportAt op info net n = some completion ∧ received completion = none

/-! ### The number of the last attempt -/

variable {op info net} {n m : ℕ}

lemma retried_succ : Retried op info net (n + 1) ↔
    Retried op (nextInfo op info (net 0)) (fun n => net (n + 1)) n :=
  repeated_succ

lemma last_zero (h : ¬ Retried op info net 0) : Last op info net 0 :=
  ⟨fun _ hm => absurd hm (Nat.not_lt_zero _), h⟩

lemma last_succ (h : Retried op info net 0)
    (hn : Last op (nextInfo op info (net 0)) (fun n => net (n + 1)) n) :
    Last op info net (n + 1) := by
  refine ⟨fun m hm => ?_, mt retried_succ.mp hn.2⟩
  cases m with
  | zero => exact h
  | succ m => exact retried_succ.mpr (hn.1 m (Nat.lt_of_succ_lt_succ hm))

/-- There is one last attempt only. -/
lemma Last.unique (hn : Last op info net n) (hm : Last op info net m) : n = m := by
  rcases Nat.lt_trichotomy n m with hlt | heq | hlt
  · exact absurd (hm.1 n hlt) hn.2
  · exact heq
  · exact absurd (hn.1 m hlt) hm.2

/-- After an error nothing is started again. -/
lemma Fails.not_retried (h : Fails op info net n) : ¬ Retried op info net n := by
  obtain ⟨completion, hreport, hreceived⟩ := h
  rintro ⟨completion', hreport', ⟨response, hresponse, -⟩, -⟩
  obtain rfl := Option.some.inj (hreport.symm.trans hreport')
  rw [hreceived] at hresponse
  cases hresponse

/-- What holds of some last attempt holds of this one. -/
lemma Last.exists_iff {P : ℕ → Prop} (hn : Last op info net n) :
    (∃ m, Last op info net m ∧ P m) ↔ P n :=
  ⟨fun ⟨_, hm, hP⟩ => hn.unique hm ▸ hP, fun hP => ⟨n, hn, hP⟩⟩

/-- An error of the first attempt is the last that happens. -/
lemma Last.fails_zero_iff (hn : Last op info net n) :
    Fails op info net 0 ↔ n = 0 ∧ Fails op info net n := by
  refine ⟨fun h => ?_, fun ⟨hzero, h⟩ => hzero ▸ h⟩
  obtain rfl := (last_zero h.not_retried).unique hn
  exact ⟨rfl, h⟩

/-! ### The run -/

@[simp] lemma completions_append {l l' : List Message} :
    completions (l ++ l') = completions l ++ completions l' :=
  List.filterMap_append

/-- Before its request to the broker an attempt has none. -/
lemma completions_prepare {x : Network} : completions (prepare op info x).messages = [] := by
  rw [prepare]
  split
  · rfl
  · dsimp only
    split_ifs
    · split <;> rfl
    · rfl

/-- The calls are those of the last attempt, and all attempts before it were refused. -/
lemma asyncSend_run : ∃ n, Last op info net n ∧
    (asyncSend op info net).calls = ((reportAt op info net n).map callsOf).getD [] ∧
    ∃ earlier, completions (asyncSend op info net).messages =
        earlier ++ (reportAt op info net n).toList ∧ earlier.length = n ∧
      ∀ completion ∈ earlier, ∃ response, received completion = some response ∧
        response.statusCode = Types.responseCodeUnauthorized := by
  induction hk : (1 - info.numberOfTries).toNat using Nat.strong_induction_on
    generalizing info net with
  | h k ih =>
      rw [asyncSend_eq]
      cases hrequest : (prepare op info (net 0)).request with
      | none =>
          have hreport : reportAt op info net 0 = none := reportAt_zero_eq_none.mpr hrequest
          refine ⟨0, last_zero (not_repeated_of_none net hrequest), ?_, [], ?_, rfl,
            fun _ h => absurd h List.not_mem_nil⟩
          · rw [hreport]
            rfl
          · rw [hreport]
            exact completions_prepare
      | some request =>
          have hreport : reportAt op info net 0 = some (net 0).broker :=
            reportAt_zero_of_some hrequest
          dsimp only
          by_cases hagain : ReceivesAgain info (net 0).broker
          · rw [if_pos hagain]
            have htries : (nextInfo op info (net 0)).numberOfTries = info.numberOfTries + 1 :=
              infoAt_numberOfTries 1
            have htry := hagain.2
            obtain ⟨n, hlast, hcalls, earlier, hcompletions, hlength, hrefused⟩ :=
              @ih (1 - (nextInfo op info (net 0)).numberOfTries).toNat (by omega)
                (nextInfo op info (net 0)) (fun n => net (n + 1)) rfl
            refine ⟨n + 1, last_succ ⟨_, hreport, hagain⟩ hlast, ?_,
              (net 0).broker :: earlier, ?_, ?_, ?_⟩
            · rw [reportAt_succ]
              exact hcalls
            · rw [reportAt_succ, completions_append, completions_append, completions_prepare,
                hcompletions]
              rfl
            · rw [List.length_cons, hlength]
            · exact List.forall_mem_cons.mpr ⟨hagain.1, hrefused⟩
          · rw [if_neg hagain]
            refine ⟨0, last_zero ?_, ?_, [], ?_, rfl, fun _ h => absurd h List.not_mem_nil⟩
            · rintro ⟨completion, h, hc⟩
              obtain rfl := Option.some.inj (hreport.symm.trans h)
              exact hagain hc
            · rw [hreport]
              rfl
            · rw [hreport, completions_append, completions_prepare]
              rfl

/-- What is reported of an error is no answer. -/
lemma error_ne_zero {completion : Completion} (h : received completion = none) :
    completion.error ≠ 0 := by
  intro herror
  rw [received, if_pos herror] at h
  exact (completion.reports.resolve_left (fun hne => hne herror)) h

lemma callsOf_of_some {completion : Completion} {response : CbResponse}
    (h : received completion = some response) : callsOf completion =
      if response.statusCode = Types.responseCodeBadGateway then []
      else [(response.content, response.statusCode)] := by
  rw [callsOf, h]

lemma callsOf_of_none {completion : Completion} (h : received completion = none) :
    callsOf completion = [("", -(completion.error : ℤ))] := by
  rw [callsOf, h]

/-- The answers of refused attempts have the status of a refusal. -/
lemma statusCode_of_getLast? {earlier : List Completion} {response : CbResponse}
    (hrefused : ∀ completion ∈ earlier, ∃ response, received completion = some response ∧
      response.statusCode = Types.responseCodeUnauthorized)
    (h : (earlier.filterMap received).getLast? = some response) :
    response.statusCode = Types.responseCodeUnauthorized := by
  obtain ⟨completion, hmem, hreceived⟩ := List.mem_filterMap.mp (List.mem_of_getLast? h)
  obtain ⟨response', hresponse', hcode⟩ := hrefused completion hmem
  obtain rfl := Option.some.inj (hreceived.symm.trans hresponse')
  exact hcode

/-! ### When the callback is called -/

lemma answered_iff {completion : Completion} (h : reportAt op info net n = some completion) :
    Answered op info net n ↔ ∃ response, received completion = some response ∧
      response.statusCode ≠ Types.responseCodeBadGateway := by
  simp only [Answered, h, Option.some.injEq, exists_and_left, exists_eq_left']

lemma fails_iff {completion : Completion} (h : reportAt op info net n = some completion) :
    Fails op info net n ↔ received completion = none := by
  simp only [Fails, h, Option.some.injEq, exists_eq_left']

/-- Without a call nothing is completed. -/
lemma not_of_calls_eq_nil {run : AsyncRun} (h : run.calls = []) :
    ¬ CompletesOnce run ∧ ¬ ReportsLast run := by
  constructor
  all_goals
    rintro ⟨call, hcall, -⟩
    rw [h] at hcall
    cases hcall

/-- An answer that is handed over is the last one. -/
lemma completes_of_answer {run : AsyncRun} {earlier : List Completion} {completion : Completion}
    {response : CbResponse} (hcompletions : completions run.messages = earlier ++ [completion])
    (hreceived : received completion = some response)
    (hcalls : run.calls = [(response.content, response.statusCode)]) :
    CompletesOnce run ∧ ReportsLast run := by
  constructor
  · refine ⟨_, hcalls, ?_⟩
    rw [hcompletions, List.filterMap_append, List.filterMap_cons_some hreceived,
      List.filterMap_nil, List.getLast?_concat]
    rfl
  · refine ⟨_, hcalls, completion, ?_, ?_⟩
    · rw [hcompletions, List.getLast?_concat]
    · rw [hreceived]
      rfl

/-- An error that is handed over is what came of the last attempt, and all that came if it is
the first one. -/
lemma completes_of_error {run : AsyncRun} {earlier : List Completion} {completion : Completion}
    (hcompletions : completions run.messages = earlier ++ [completion])
    (hrefused : ∀ completion ∈ earlier, ∃ response, received completion = some response ∧
      response.statusCode = Types.responseCodeUnauthorized)
    (hreceived : received completion = none)
    (hcalls : run.calls = [("", -(completion.error : ℤ))]) :
    (CompletesOnce run ↔ earlier = []) ∧ ReportsLast run := by
  refine ⟨⟨?_, ?_⟩, ?_⟩
  · rintro ⟨call, hcall, hlast⟩
    obtain rfl := List.singleton_injective (hcalls.symm.trans hcall)
    rw [hcompletions, List.filterMap_append, List.filterMap_cons_none hreceived,
      List.filterMap_nil, List.append_nil] at hlast
    cases earlier with
    | nil => rfl
    | cons first earlier =>
        -- the call would be with the answer of an attempt that was refused
        obtain ⟨response, hfirst, -⟩ := hrefused first List.mem_cons_self
        cases hresponse : ((first :: earlier).filterMap received).getLast? with
        | none =>
            rw [List.getLast?_eq_none_iff, List.filterMap_cons_some hfirst] at hresponse
            cases hresponse
        | some response =>
            rw [hresponse] at hlast
            have hcode := statusCode_of_getLast? hrefused hresponse
            have hcode' : -(completion.error : ℤ) = response.statusCode :=
              congrArg Prod.snd hlast
            rw [hcode, Types.responseCodeUnauthorized] at hcode'
            omega
  · rintro rfl
    refine ⟨_, hcalls, ?_⟩
    rw [hcompletions, List.nil_append, List.filterMap_cons_none hreceived]
    exact ⟨completion, List.mem_singleton_self _, error_ne_zero hreceived, rfl⟩
  · refine ⟨_, hcalls, completion, ?_, ?_⟩
    · rw [hcompletions, List.getLast?_concat]
    · rw [hreceived]
      exact ⟨completion, List.mem_singleton_self _, error_ne_zero hreceived, rfl⟩

/-- **The callback is called once with the last answer**, or with an error if there is none,
exactly when the last attempt is answered with another status than 502, or the first one fails
with an error. It is called once with what comes of the last attempt exactly when that one is
answered so or fails with an error. -/
theorem completesOnce_iff :
    (CompletesOnce (asyncSend op info net) ↔
      (∃ n, Last op info net n ∧ Answered op info net n) ∨ Fails op info net 0) ∧
    (ReportsLast (asyncSend op info net) ↔
      ∃ n, Last op info net n ∧ (Answered op info net n ∨ Fails op info net n)) := by
  obtain ⟨n, hlast, hcalls, earlier, hcompletions, hlength, hrefused⟩ :=
    @asyncSend_run op info net
  rw [hlast.exists_iff, hlast.exists_iff, hlast.fails_zero_iff]
  cases hreport : reportAt op info net n with
  | none =>
      -- an exception: nobody is called
      rw [hreport] at hcalls
      have hno := not_of_calls_eq_nil hcalls
      have hanswered : ¬ Answered op info net n := by
        rintro ⟨completion, response, h, -⟩
        rw [hreport] at h
        cases h
      have hfails : ¬ Fails op info net n := by
        rintro ⟨completion, h, -⟩
        rw [hreport] at h
        cases h
      exact ⟨iff_of_false hno.1 (by simp [hanswered, hfails]),
        iff_of_false hno.2 (by simp [hanswered, hfails])⟩
  | some completion =>
      rw [hreport] at hcalls hcompletions
      rw [answered_iff hreport, fails_iff hreport]
      cases hreceived : received completion with
      | none =>
          have hcompletes := completes_of_error hcompletions hrefused hreceived
            (hcalls.trans (callsOf_of_none hreceived))
          rw [← hlength, List.length_eq_zero_iff]
          simp [hcompletes]
      | some response =>
          have hcalls' := hcalls.trans (callsOf_of_some hreceived)
          by_cases hgateway : response.statusCode = Types.responseCodeBadGateway
          · rw [if_pos hgateway] at hcalls'
            have hno := not_of_calls_eq_nil hcalls'
            simp [hno, hgateway]
          · rw [if_neg hgateway] at hcalls'
            have hcompletes := completes_of_answer hcompletions hreceived hcalls'
            simp [hcompletes, hgateway]

/-! ### Requests without a call -/

/-- An update of a context, without an identity server. -/
def sampleOperation : Operation where
  oauth := {}
  method := "POST"
  url := "http://10.0.0.2:1026/NGSI10/updateContext"
  content := "\x7b\x7d"

/-- The broker answers with a status in every attempt, if its name resolves. -/
def sampleNetwork (statusCode : ℤ) (resolves : Bool) : ℕ → Network := fun _ => {
  brokerResolves := resolves
  broker := ⟨some ⟨statusCode, ""⟩, 0, .inr (Option.some_ne_none _)⟩ }

/-- After an answer 502, and after an exception, nobody is called. -/
theorem not_completesOnce_badGateway :
    ¬ CompletesOnce (asyncSend sampleOperation { texts := [] } (sampleNetwork 502 true)) ∧
      ¬ CompletesOnce (asyncSend sampleOperation { texts := [] } (sampleNetwork 200 false)) := by
  constructor
  · refine (not_of_calls_eq_nil ?_).1
    have hrequest : (prepare sampleOperation { texts := [] }
        (sampleNetwork 502 true 0)).request.isSome := by decide +kernel
    obtain ⟨request, hrequest⟩ := Option.isSome_iff_exists.mp hrequest
    rw [asyncSend_eq, hrequest]
    rfl
  · refine (not_of_calls_eq_nil ?_).1
    have hrequest : (prepare sampleOperation { texts := [] }
        (sampleNetwork 200 false 0)).request.isNone := by decide +kernel
    rw [asyncSend_eq, Option.isNone_iff_eq_none.mp hrequest]

end ContextBrokerCommunicator

end IotAgent
