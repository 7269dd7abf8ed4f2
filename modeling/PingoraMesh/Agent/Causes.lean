import PingoraMesh.Agent.Acks
import PingoraMesh.Lib.Prog
import PingoraMesh.Lib.Search
import PingoraMesh.Lib.Words

/-!
# Causes that are recovered from texts

The agent tells errors apart by their messages, which contain bodies of the hub, names of templates and outputs of
commands.

* `contains_httpError`: the message of an HTTP error has the mark of a status exactly if it is its own or its body has
  it;
* `HttpResponse.recognised_iff`: `is_not_found` and `is_auth_error` are right exactly for responses whose body has no
  such mark and can be read;
* `runNodeOperation_explained`: when the message of a failed operation says that it timed out;
* `reports_explained`: what `sync_pending_operations` reports in a run; `causes_iff`: both together.
-/

namespace PingoraMesh.NodeAgent

open Calls Fallible Text

/-! ## HTTP errors -/

theorem toList_toString (n : Nat) : (toString n).toList = Text.decimal n := Nat.toList_repr

theorem colon_notMem_decimal (n : Nat) : ':' ∉ Text.decimal n := by
  intro h
  exact absurd (Text.isDigit_of_mem_decimal h) (by decide)

/-- What an error message begins with, and what is looked for. -/
def httpHead (n : Nat) : List Char := "http ".toList ++ Text.decimal n

theorem toList_mark (n : Nat) : ("http " ++ toString n ++ ":").toList = httpHead n ++ [':'] := by
  rw [String.toList_append, String.toList_append, toList_toString]
  rfl

theorem toList_httpError (n : Nat) (body : String) :
    ("http " ++ toString n ++ ": " ++ body).toList = httpHead n ++ [':', ' '] ++ body.toList := by
  rw [String.toList_append, String.toList_append, String.toList_append, toList_toString]
  rfl

theorem colon_notMem_httpHead (n : Nat) : ':' ∉ httpHead n := by
  intro h
  rcases List.mem_append.1 h with h | h
  · exact absurd h (by decide)
  · exact colon_notMem_decimal n h

/-- A proper beginning of a mark is a beginning of what stands before its colon. -/
theorem prefix_httpHead {n : Nat} {l : List Char} (h : l <+: httpHead n ++ [':']) (hne : l ≠ httpHead n ++ [':']) :
    l <+: httpHead n := by
  rcases List.prefix_concat_iff.1 h with e | h
  · exact absurd e hne
  · exact h

/-- No mark goes over into the body. -/
theorem endsApart_mark (k : Nat) : EndsApart [':', ' '] (httpHead k ++ [':']) := by
  intro l hl hne hproper
  have hbegins := prefix_httpHead ((List.mem_inits _ _).1 hl) hproper
  constructor
  · -- it begins with an `h`
    intro hsuffix
    cases l with
    | nil => exact hne rfl
    | cons c l =>
      obtain ⟨hc, -⟩ := List.cons_prefix_cons.1 hbegins
      have hmem : c ∈ [':', ' '] := hsuffix.subset List.mem_cons_self
      rw [hc] at hmem
      exact absurd hmem (by decide)
  · intro hsuffix
    exact colon_notMem_httpHead k (hbegins.subset (hsuffix.subset List.mem_cons_self))

/-- The head of a message has the mark of a status exactly if it is its own. -/
theorem mark_infix_head_iff (n k : Nat) : httpHead k ++ [':'] <:+: httpHead n ++ [':', ' '] ↔ n = k := by
  constructor
  · intro h
    have hbegins : httpHead k ++ [':'] <+: httpHead n ++ [':', ' '] := by
      refine (List.infix_cons_iff.1 h).resolve_right fun hrest => ?_
      -- there is no other `h`
      have hmem : 'h' ∈ "ttp ".toList ++ Text.decimal n ++ [':', ' '] := hrest.subset List.mem_cons_self
      rw [List.mem_append, List.mem_append] at hmem
      rcases hmem with (hmem | hmem) | hmem
      · exact absurd hmem (by decide)
      · exact absurd (Text.isDigit_of_mem_decimal hmem) (by decide)
      · exact absurd hmem (by decide)
    obtain ⟨t, ht⟩ := hbegins
    have hsame : httpHead k ++ ':' :: t = httpHead n ++ ':' :: [' '] := by
      rw [← ht, List.append_assoc]
      rfl
    have hwords := congrArg (splitChars ':') hsame
    rw [splitChars_append_sep, splitChars_append_sep, splitChars_of_notMem (colon_notMem_httpHead k),
      splitChars_of_notMem (colon_notMem_httpHead n)] at hwords
    have hhead : httpHead k = httpHead n := (List.cons.inj hwords).1
    exact (Text.decimal_inj (List.append_cancel_left hhead)).symm
  · rintro rfl
    have hbegins : [':'] <+: [':', ' '] := by decide
    exact ((List.prefix_append_right_inj _).2 hbegins).isInfix

/-- The message of an HTTP error has the mark of a status if it is its own or its body has it. -/
theorem contains_httpError (n k : Nat) (body : String) :
    Text.contains ("http " ++ toString n ++ ": " ++ body) ("http " ++ toString k ++ ":") = true ↔
      n = k ∨ Text.contains body ("http " ++ toString k ++ ":") = true := by
  rw [contains_iff, contains_iff, toList_httpError, toList_mark, infix_append_of_endsApart (endsApart_mark k),
    mark_infix_head_iff]

/-- An HTTP response: its status, and its body or why that cannot be read. -/
structure HttpResponse where
  status : Nat
  text : Except String String

namespace HttpResponse

variable {α : Type}

/-- What the agent has of it, where `decode` reads an envelope. -/
def answer (decode : String → Except String α) (r : HttpResponse) : HttpAnswer α :=
  match r.text with
  | .error cause => .bodyFailed cause
  | .ok body => .answered r.status body (decode body)

/-- The body of an error can be read and has no mark of another status; a body that cannot be read is not of a status
that the agent looks for. -/
def Plain (r : HttpResponse) : Prop :=
  match r.text with
  | .error _ => r.status ≠ 404 ∧ r.status ≠ 401
  | .ok body => (200 ≤ r.status ∧ r.status < 300) ∨
    ((r.status ≠ 404 → Text.contains body "http 404:" = false) ∧
      (r.status ≠ 401 → Text.contains body "http 401:" = false))

/-- An error of `parse_response` is taken for what it is. -/
def Recognised (r : HttpResponse) (e : Failure) : Prop :=
  (isNotFound e = true ↔ r.status = 404) ∧ (isAuthError e = true ↔ r.status = 401)

/-- A mark that is looked for in the message of an HTTP error stands for the status exactly if the body has none. -/
theorem mark_iff (n k : Nat) (body : String) :
    ((Text.contains ("http " ++ toString n ++ ": " ++ body) ("http " ++ toString k ++ ":") = true ↔ n = k) ↔
      (n ≠ k → Text.contains body ("http " ++ toString k ++ ":") = false)) := by
  rw [contains_httpError, Bool.eq_false_iff]
  tauto

/-- The causes are taken for what they are exactly if the response is plain. -/
theorem recognised_iff (decode : String → Except String α) (verb url : String) (r : HttpResponse) {e : Failure}
    (h : parseResponse verb url (r.answer decode) = .error e) : r.Recognised e ↔ r.Plain := by
  have h404 : "http 404:" = "http " ++ toString 404 ++ ":" := by decide
  have h401 : "http 401:" = "http " ++ toString 401 ++ ":" := by decide
  obtain ⟨status, text⟩ := r
  cases text with
  | error cause =>
    cases h
    have hnone : Text.contains "failed to read response body" "http 404:" = false ∧
        Text.contains "failed to read response body" "http 401:" = false := by decide
    unfold Recognised Plain isNotFound isAuthError
    dsimp only
    rw [hnone.1, hnone.2]
    simp
  | ok body =>
    rw [answer, parseResponse] at h
    split at h
    · rename_i hsuccess
      dsimp only at hsuccess
      have hnone : Text.contains "failed to decode api response envelope" "http 404:" = false ∧
          Text.contains "failed to decode api response envelope" "http 401:" = false := by decide
      have hne : status ≠ 404 ∧ status ≠ 401 := by omega
      cases hdata : decode body with
      | ok a =>
        rw [hdata] at h
        cases h
      | error cause =>
        rw [hdata] at h
        cases h
        unfold Recognised Plain isNotFound isAuthError
        dsimp only
        rw [hnone.1, hnone.2]
        refine iff_of_true ⟨?_, ?_⟩ (.inl hsuccess)
        · exact iff_of_false Bool.false_ne_true hne.1
        · exact iff_of_false Bool.false_ne_true hne.2
    · rename_i herror
      cases h
      unfold Recognised Plain isNotFound isAuthError
      dsimp only
      rw [h404, h401, mark_iff, mark_iff]
      exact ⟨.inr, fun h => h.resolve_left herror⟩

end HttpResponse

/-! ## Errors of operations -/

/-- What is known of an operation: who the process is, and what became of the command if it was started. -/
structure Attempt where
  operation : Option PendingOperationResponse
  user : Option String
  outcome : Option CommandOutcome

/-- The deadline elapsed. -/
def Attempt.Elapsed (a : Attempt) : Prop := a.outcome = some .timedOut

/-- The command ran and exited with zero. -/
def Attempt.Succeeded (a : Attempt) : Prop := ∃ stdout stderr, a.outcome = some (.exited (some 0) stdout stderr)

/-- A text of a failure other than the deadline speaks of one: if the user is refused, the name of the template or of
one of the users, and if the command fails, what is kept of its outputs. -/
def Imitates (operation : PendingOperationResponse) (user : String) : Option CommandOutcome → Prop
  | none => Text.contains operation.templateName "timed out" = true ∨
      Text.contains operation.runAsUser "timed out" = true ∨ Text.contains user "timed out" = true
  | some (.exited code stdout stderr) => code ≠ some 0 ∧
      (Text.contains (truncateMessage stdout) "timed out" = true ∨
        Text.contains (truncateMessage stderr) "timed out" = true)
  | some _ => False

/-- The message of a refusal. -/
theorem contains_refusal (name runAsUser user : String) :
    Text.contains ("operation " ++ name ++ " requires run_as_user=" ++ runAsUser ++ ", current user=" ++ user)
        "timed out" = true ↔
      Text.contains name "timed out" = true ∨ Text.contains runAsUser "timed out" = true ∨
        Text.contains user "timed out" = true := by
  have hstart : Separates "operation ".toList "timed out".toList := ⟨by decide, by decide, by decide⟩
  have hrequires : Separates " requires run_as_user=".toList "timed out".toList := ⟨by decide, by decide, by decide⟩
  have hcurrent : Separates ", current user=".toList "timed out".toList := ⟨by decide, by decide, by decide⟩
  have hname := contains_append_sep hstart "" name
  rw [String.empty_append] at hname
  have hempty : Text.contains "" "timed out" = false := by decide
  rw [contains_append_sep hcurrent, contains_append_sep hrequires, hname, hempty]
  simp only [Bool.false_eq_true, false_or, or_assoc]

/-- An exit code is a number or the word `signal`. -/
theorem contains_exitText (code : Option Int) : Text.contains (exitText code) "timed out" = false := by
  rw [Bool.eq_false_iff]
  intro h
  have hmem : 't' ∈ (exitText code).toList := ((contains_iff _ _).1 h).subset (by decide)
  cases code with
  | none => exact absurd hmem (by decide)
  | some n =>
    have hrepr : exitText (some n) = n.repr := rfl
    rw [hrepr, Int.repr_eq_if] at hmem
    have hnat : ∀ k : Nat, 't' ∉ k.repr.toList := by
      intro k hk
      rw [Nat.toList_repr] at hk
      exact absurd (Text.isDigit_of_mem_decimal hk) (by decide)
    split at hmem
    · exact hnat _ hmem
    · rw [String.toList_append, List.mem_append] at hmem
      rcases hmem with hmem | hmem
      · exact absurd hmem (by decide)
      · exact hnat _ hmem

theorem contains_outputText (s : String) :
    Text.contains (outputText s) "timed out" = true ↔ Text.contains s "timed out" = true := by
  unfold outputText
  split
  · rename_i hempty
    have hs : s.toList = [] := List.isEmpty_iff.1 hempty
    have hdash : Text.contains "-" "timed out" = false := by decide
    rw [hdash, contains_iff, hs]
    exact iff_of_false Bool.false_ne_true (by decide)
  · exact Iff.rfl

/-- The message of a command that failed. -/
theorem contains_exited (code : Option Int) (stdout stderr : String) :
    Text.contains ("node operation" ++ " exited with " ++ exitText code ++ "; stdout=" ++
        outputText stdout ++ "; stderr=" ++ outputText stderr) "timed out" = true ↔
      Text.contains stdout "timed out" = true ∨ Text.contains stderr "timed out" = true := by
  have hexited : Separates " exited with ".toList "timed out".toList := ⟨by decide, by decide, by decide⟩
  have hstdout : Separates "; stdout=".toList "timed out".toList := ⟨by decide, by decide, by decide⟩
  have hstderr : Separates "; stderr=".toList "timed out".toList := ⟨by decide, by decide, by decide⟩
  have hwhat : Text.contains "node operation" "timed out" = false := by decide
  rw [contains_append_sep hstderr, contains_append_sep hstdout, contains_append_sep hexited, hwhat, contains_exitText,
    contains_outputText, contains_outputText]
  simp only [Bool.false_eq_true, false_or]

theorem contains_timedOut (name seconds : String) :
    Text.contains ("operation " ++ name ++ " timed out after " ++ seconds ++ "s") "timed out" = true := by
  rw [contains_iff]
  refine ⟨("operation " ++ name ++ " ").toList, (" after " ++ seconds ++ "s").toList, ?_⟩
  rw [← String.toList_append, ← String.toList_append]
  congr 1
  simp only [String.append_assoc]
  rfl

theorem success_iff (code : Option Int) (stdout stderr : String) :
    CommandOutcome.success (.exited code stdout stderr) = true ↔ code = some 0 := by
  constructor
  · intro h
    unfold CommandOutcome.success at h
    split at h
    · rename_i heq
      cases heq
      rfl
    · cases h
  · rintro rfl
    rfl

/-- The end of a command: an output if it ended well, and else a message that speaks of a timeout at the deadline or by
its outputs. -/
theorem commandResult_explained (operation : PendingOperationResponse) (user : String) (outcome : CommandOutcome) :
    match commandResult "node operation" ("operation " ++ operation.templateName ++ " timed out after " ++
        toString operation.timeoutSeconds ++ "s") "failed to execute node operation command" outcome with
    | .ok _ => ∃ stdout stderr, outcome = .exited (some 0) stdout stderr
    | .error e => (∀ stdout stderr, outcome ≠ .exited (some 0) stdout stderr) ∧
      (Text.contains e.message "timed out" = true ↔ outcome = .timedOut ∨ Imitates operation user (some outcome)) := by
  cases outcome with
  | timedOut =>
    refine ⟨fun _ _ e => by (cases e), iff_of_true ?_ (.inl rfl)⟩
    exact contains_timedOut operation.templateName (toString operation.timeoutSeconds)
  | notStarted cause =>
    have hfailed : Text.contains "failed to execute node operation command" "timed out" = false := by decide
    refine ⟨fun _ _ e => by (cases e), ?_⟩
    dsimp only
    rw [hfailed]
    refine iff_of_false Bool.false_ne_true ?_
    rintro (e | e)
    · cases e
    · exact e
  | exited code stdout stderr =>
    rw [commandResult]
    split
    · rename_i heq
      split at heq
      · rename_i hsuccess
        exact ⟨stdout, stderr, by rw [(success_iff code stdout stderr).1 hsuccess]⟩
      · cases heq
    · rename_i e heq
      split at heq
      · cases heq
      · rename_i hfailure
        cases heq
        have hcode : code ≠ some 0 := fun e => hfailure ((success_iff code stdout stderr).2 e)
        refine ⟨fun _ _ e => hcode (by cases e; rfl), ?_⟩
        dsimp only
        rw [contains_exited]
        constructor
        · exact fun h => .inr ⟨hcode, h⟩
        · rintro (e | ⟨-, h⟩)
          · cases e
          · exact h

/-! ## Runs -/

/-- What an observer of the calls knows: the operation under way, and the reports with what was known when they were
made. -/
structure Watch where
  attempt : Attempt
  reports : List (Attempt × OperationResultRequest)

/-- Nothing has been seen. -/
def Watch.start : Watch := ⟨⟨none, none, none⟩, []⟩

/-- A call and its answer are seen. -/
def Watch.see (g : Watch) : (c : AgentCall) → AgentSig.Ans c → Watch
  | .outside (.pendingOperation _ _), answer => { g with attempt := ⟨HttpAnswer.data? answer, none, none⟩ }
  | .outside .processUser, answer =>
    { g with attempt := { g.attempt with user := some (Option.getD answer "unknown") } }
  | .outside (.shell _ _ _), answer => { g with attempt := { g.attempt with outcome := some answer } }
  | .outside (.operationResult _ _ request), _ => { g with reports := g.reports ++ [(g.attempt, request)] }
  | _, _ => g

/-- The report says what became of the command. -/
def Attempt.Reported (a : Attempt) (request : OperationResultRequest) : Prop :=
  (request.execStatus = "timeout" ↔ a.Elapsed) ∧ (request.execStatus = "success" ↔ a.Succeeded)

/-- The report is of an operation, and says what became of the command unless a text imitates a timeout. -/
def Attempt.Explained (a : Attempt) (request : OperationResultRequest) : Prop :=
  ∃ operation user, a.operation = some operation ∧ a.user = some user ∧
    (a.Reported request ↔ ¬ Imitates operation user a.outcome)

/-- The calls may be answered in any way, and are watched. -/
abbrev watchSpec : Spec AgentSig Watch := .protocol (fun _ _ => True) fun c r g => g.see c r

section Watched

variable {config : AgentConfig} {registration : RegistrationMetadata} {session : Session} {g : Watch}

/-- The message of a failed operation speaks of a timeout at the deadline or where a text imitates it. -/
theorem runNodeOperation_explained {operation : PendingOperationResponse}
    (h : g.attempt = ⟨some operation, none, none⟩) : wp watchSpec (runNodeOperation registration operation)
      (fun _ g' => g'.reports = g.reports ∧ g'.attempt.operation = some operation ∧ g'.attempt.user.isSome ∧
        g'.attempt.Succeeded)
      (fun e g' => g'.reports = g.reports ∧ g'.attempt.operation = some operation ∧ ¬ g'.attempt.Succeeded ∧
        ∃ user, g'.attempt.user = some user ∧ (Text.contains e.message "timed out" = true ↔
          g'.attempt.Elapsed ∨ Imitates operation user g'.attempt.outcome)) g := by
  simp only [runNodeOperation, ask, wp_bind, wp_call_protocol, wp_ensure, wp_attempt, wp_pure, true_and, Watch.see, h]
  intro user
  constructor
  · intro _ outcome
    have hresult := commandResult_explained operation (Option.getD user "unknown") outcome
    constructor
    · intro stdout hok
      rw [hok] at hresult
      obtain ⟨stdout, stderr, rfl⟩ := hresult
      exact ⟨rfl, stdout, stderr, rfl⟩
    · intro e herror
      rw [herror] at hresult
      obtain ⟨hnot, hiff⟩ := hresult
      refine ⟨?_, _, rfl, ?_⟩
      · rintro ⟨stdout, stderr, hsome⟩
        exact hnot stdout stderr (Option.some.inj hsome)
      · rw [hiff]
        refine or_congr ?_ Iff.rfl
        exact ⟨congrArg some, Option.some.inj⟩
  · intro _
    refine ⟨?_, _, rfl, ?_⟩
    · rintro ⟨stdout, stderr, hsome⟩
      cases hsome
    · rw [contains_refusal]
      constructor
      · exact .inr
      · rintro (e | h)
        · cases e
        · exact h

section Explained

variable {a : Attempt} {operation : PendingOperationResponse} {user : String} {request : OperationResultRequest}

/-- The report of a command that ended well. -/
theorem explained_of_success (hoperation : a.operation = some operation) (huser : a.user = some user)
    (hsucceeded : a.Succeeded) (hstatus : request.execStatus = "success") : a.Explained request := by
  obtain ⟨stdout, stderr, houtcome⟩ := hsucceeded
  refine ⟨operation, user, hoperation, huser, iff_of_true ⟨?_, ?_⟩ ?_⟩
  · rw [hstatus, Attempt.Elapsed, houtcome]
    exact iff_of_false (by decide) fun e => by (cases e)
  · exact iff_of_true hstatus ⟨stdout, stderr, houtcome⟩
  · rw [houtcome]
    exact fun himitates => himitates.1 rfl

/-- The report of an operation that failed. -/
theorem explained_of_failure (hoperation : a.operation = some operation) (huser : a.user = some user) {e : Failure}
    (hfailed : ¬ a.Succeeded) (hmessage : Text.contains e.message "timed out" = true ↔
      a.Elapsed ∨ Imitates operation user a.outcome) (hstatus : request.execStatus = classifyOperationError e) :
    a.Explained request := by
  refine ⟨operation, user, hoperation, huser, ?_⟩
  have hsuccess : request.execStatus = "success" ↔ a.Succeeded := by
    refine iff_of_false ?_ hfailed
    rw [hstatus, classifyOperationError]
    split
    · decide
    · decide
  have htimeout : request.execStatus = "timeout" ↔ Text.contains e.message "timed out" = true := by
    rw [hstatus, classifyOperationError]
    split
    · rename_i h
      exact iff_of_true rfl h
    · rename_i h
      exact iff_of_false (by decide) h
  have hapart : Imitates operation user a.outcome → ¬ a.Elapsed := by
    intro h helapsed
    rw [show a.outcome = some .timedOut from helapsed] at h
    exact h
  rw [Attempt.Reported, hsuccess, htimeout, hmessage, and_iff_left Iff.rfl]
  constructor
  · intro h himitates
    exact hapart himitates (h.1 (.inr himitates))
  · intro hnot
    exact ⟨fun h => h.resolve_right hnot, .inl⟩

end Explained

/-- Every report is explained. -/
theorem syncPendingOperations_explained (turns executed : Nat) (h : ∀ r ∈ g.reports, r.1.Explained r.2) :
    wp watchSpec (syncPendingOperations config registration session turns executed)
      (fun _ g' => ∀ r ∈ g'.reports, r.1.Explained r.2) (fun _ g' => ∀ r ∈ g'.reports, r.1.Explained r.2) g := by
  induction turns generalizing g executed with
  | zero => exact (wp_pure _).2 h
  | succ turns ih =>
    simp only [syncPendingOperations, ask, wp_bind, wp_call_protocol, true_and]
    intro answer
    split
    · split
      · exact (wp_pure _).2 h
      · exact (wp_throw _).2 h
    · rename_i operation hanswer
      have hattempt : (g.see (.outside (.pendingOperation session.accessToken registration.nodeId)) answer).attempt =
          ⟨some operation, none, none⟩ := by
        show (⟨HttpAnswer.data? answer, none, none⟩ : Attempt) = _
        rw [data?_of_parseResponse hanswer]
      simp only [wp_bind, wp_caught, wp_call_protocol, wp_attempt, true_and]
      -- the report is one more, and the loop goes on
      have hnext : ∀ (g' : Watch) (request : OperationResultRequest), g'.reports = g.reports →
          g'.attempt.Explained request →
          ∀ r ∈ (⟨g'.attempt, g'.reports ++ [(g'.attempt, request)]⟩ : Watch).reports, r.1.Explained r.2 := by
        intro g' request hsame hexplained r hr
        rcases List.mem_append.1 hr with hr | hr
        · rw [hsame] at hr
          exact h r hr
        · rw [List.mem_singleton.1 hr]
          exact hexplained
      refine wp_mono ?_ ?_ (runNodeOperation_explained hattempt)
      · rintro stdout g' ⟨hsame, hoperation, huser, hsucceeded⟩ finishedAt result
        obtain ⟨user, huser⟩ := Option.isSome_iff_exists.1 huser
        have hexplained : ∀ request : OperationResultRequest, request.execStatus = "success" →
          g'.attempt.Explained request :=
          fun request hstatus => explained_of_success hoperation huser hsucceeded hstatus
        exact ⟨fun _ _ => ih _ (hnext g' _ hsame (hexplained _ rfl)), fun _ _ => hnext g' _ hsame (hexplained _ rfl)⟩
      · rintro e g' ⟨hsame, hoperation, hfailed, user, huser, hmessage⟩ finishedAt result
        have hexplained : ∀ request : OperationResultRequest, request.execStatus = classifyOperationError e →
            g'.attempt.Explained request :=
          fun request hstatus => explained_of_failure hoperation huser hfailed hmessage hstatus
        exact ⟨fun _ _ => ih _ (hnext g' _ hsame (hexplained _ rfl)), fun _ _ => hnext g' _ hsame (hexplained _ rfl)⟩

end Watched

/-- What an observer has seen of a run of `sync_pending_operations`. -/
def watched {σ : Type} (handler : Handler AgentSig σ) (config : AgentConfig) (registration : RegistrationMetadata)
    (session : Session) (turns executed : Nat) (s : σ) : Watch :=
  (Fallible.run (Prog.observing handler Watch.see) (syncPendingOperations config registration session turns executed)
    (s, Watch.start)).2.2

/-- Every report of a run is explained, whatever answers the calls. -/
theorem reports_explained {σ : Type} (handler : Handler AgentSig σ) (config : AgentConfig)
    (registration : RegistrationMetadata) (session : Session) (turns executed : Nat) (s : σ) :
    ∀ r ∈ (watched handler config registration session turns executed s).reports, r.1.Explained r.2 := by
  have hnone : ∀ r ∈ Watch.start.reports, r.1.Explained r.2 := fun r hr => by (cases hr)
  have hsync : wp watchSpec (syncPendingOperations config registration session turns executed)
      (fun _ g' => ∀ r ∈ g'.reports, r.1.Explained r.2) (fun _ g' => ∀ r ∈ g'.reports, r.1.Explained r.2) Watch.start :=
    syncPendingOperations_explained turns executed hnone
  have hwp := hsync.either
  obtain ⟨g, hg, rfl⟩ := Prog.wp_simulate (R := fun (g : Watch) (x : σ × Watch) => g = x.2)
    (h := Prog.observing handler Watch.see) (s := (s, Watch.start))
    (fun c g x _ hgx => ⟨_, rfl, by rw [hgx]; rfl⟩) hwp rfl
  exact hg

/-- For every response that gives an error, `is_not_found` and `is_auth_error` go by the status exactly if the
response is plain; and in every run each report says what became of the command exactly if no text imitates a timeout.
-/
theorem causes_iff {α σ : Type} (decode : String → Except String α) (verb url : String) (r : HttpResponse)
    (handler : Handler AgentSig σ) (config : AgentConfig) (registration : RegistrationMetadata) (session : Session)
    (turns executed : Nat) (s : σ) :
    (∀ e, parseResponse verb url (r.answer decode) = .error e → (r.Recognised e ↔ r.Plain)) ∧
      ∀ report ∈ (watched handler config registration session turns executed s).reports,
        report.1.Explained report.2 := by
  constructor
  · intro e h
    exact r.recognised_iff decode verb url h
  · exact reports_explained handler config registration session turns executed s

/-- A registration. -/
def edgeOne : RegistrationMetadata :=
  { nodeId := 0, nodeCode := "edge-1", hostname := "h", privateIp := "10.0.0.1", refreshToken := "r", expiresAt := ""
    registrationMode := "manual" }

/-- An operation of the hub. -/
def fetchOperation : PendingOperationResponse :=
  { operationId := 1, nodeId := 0, templateId := 2, templateName := "fetch", operationType := "shell"
    renderedCommand := "curl hub", timeoutSeconds := 30, runAsUser := "", createdAt := 0 }

/-- It waits, and its command fails with a message about a connection. -/
def failing : Handler OutsideSig Unit := fun c s =>
  match c with
  | .pendingOperation _ _ => (.answered 200 "" (.ok fetchOperation), s)
  | .shell _ _ _ => (.exited (some 1) "" "connection timed out", s)
  | c => calm c s

/-- The reports of the agent there. -/
def failingReports : List (Attempt × OperationResultRequest) :=
  (watched (agentHandler failing (.fromEnv applyVars)) (.fromEnv applyVars) edgeOne ⟨"a", 0⟩ 1 0 freshNode).reports

/-- The hub says that there is no release, and the report of the command is explained. -/
theorem causes_iff_no_release :
    HttpResponse.Recognised ⟨404, .ok "no release"⟩ ⟨"http 404: no release", []⟩ ∧ failingReports.length = 1 ∧
      ∀ report ∈ failingReports, report.1.Explained report.2 := by
  have hcauses := causes_iff (fun _ => (.error "" : Except String Unit)) "GET" "/" ⟨404, .ok "no release"⟩
    (agentHandler failing (.fromEnv applyVars)) (.fromEnv applyVars) edgeOne ⟨"a", 0⟩ 1 0 freshNode
  refine ⟨(hcauses.1 _ rfl).2 (.inr ⟨fun h => absurd rfl h, fun _ => ?_⟩), by decide +kernel, hcauses.2⟩
  decide

/-- A failure of the hub that quotes another answer is taken for a missing release, and a command that failed is
reported as a timeout. -/
theorem cause_mistaken :
    (¬ ∀ (r : HttpResponse) (e : Failure),
      parseResponse "GET" "/" (r.answer fun _ => (.error "" : Except String Unit)) = .error e → r.Recognised e) ∧
      ¬ ∀ r ∈ failingReports, r.1.Reported r.2 := by
  constructor
  · intro h
    have hrecognised := h ⟨502, .ok "upstream: http 404: no such page"⟩
      ⟨"http 502: upstream: http 404: no such page", []⟩ rfl
    exact absurd (hrecognised.1.1 (by decide)) (by decide)
  · intro h
    have hrun : failingReports.map (fun r => (r.1.outcome, r.2.execStatus)) =
        [(some (.exited (some 1) "" "connection timed out"), "timeout")] := by decide +kernel
    obtain ⟨r, hr, hsame⟩ := List.mem_map.1 (hrun ▸ List.mem_singleton.2 rfl :
      (some (.exited (some 1) "" "connection timed out"), "timeout") ∈
        failingReports.map fun r => (r.1.outcome, r.2.execStatus))
    obtain ⟨houtcome, hstatus⟩ := Prod.mk.inj hsame
    have helapsed := (h r hr).1.1 hstatus
    rw [Attempt.Elapsed, houtcome] at helapsed
    cases helapsed

end PingoraMesh.NodeAgent
