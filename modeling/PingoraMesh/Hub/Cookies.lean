import PingoraMesh.Hub.Sessions

/-!
# The cookie of a session

* `extractCookieValue_join`: in a header of several cookies, the first one of a name counts;
* `extract_buildSessionCookie`: the cookie that is built for a token is read as the token, whatever cookies come with
  it;
* `sign_in_cookie_opens_session`: in every run, the cookie that a sign-in sets leads back to the session that it has
  stored.
-/

namespace PingoraMesh.HubApi

open Calls Fallible HubService

/-! ## Headers with several cookies -/

/-- Visible ASCII without semicolons. -/
def CookieText (s : String) : Prop := ∀ c ∈ s.toList, 33 ≤ c.toNat ∧ c.toNat ≤ 126 ∧ c ≠ ';'

theorem CookieText.append {s t : String} (hs : CookieText s) (ht : CookieText t) : CookieText (s ++ t) := by
  intro c hc
  rw [String.toList_append, List.mem_append] at hc
  exact hc.elim (hs c) (ht c)

theorem CookieText.notMem {s : String} (h : CookieText s) : ';' ∉ s.toList := fun hc => (h ';' hc).2.2 rfl

theorem CookieText.not_whitespace {s : String} (h : CookieText s) : ∀ c ∈ s.toList, Text.isWhitespace c = false :=
  fun c hc => Text.isWhitespace_eq_false (h c hc).1 (h c hc).2.1

theorem splitChars_join {l : List Char} (hl : ';' ∉ l) (item : String) (items : List String)
    (hitems : ∀ o ∈ item :: items, CookieText o) :
    Text.splitChars ';' (l ++ (Text.join "; " (item :: items)).toList) =
      (l ++ item.toList) :: items.map fun o => ' ' :: o.toList := by
  induction items generalizing item l with
  | nil =>
    have hitem := (hitems item List.mem_cons_self).notMem
    rw [Text.join, List.map_nil]
    exact Text.splitChars_of_notMem (by simp [hl, hitem])
  | cons next items ih =>
    have hitem := (hitems item List.mem_cons_self).notMem
    have hjoin : l ++ (Text.join "; " (item :: next :: items)).toList =
        (l ++ item.toList) ++ ';' :: ([' '] ++ (Text.join "; " (next :: items)).toList) := by
      simp [Text.join]
    rw [hjoin, Text.splitChars_append_sep, Text.splitChars_of_notMem (by simp [hl, hitem]),
      ih (by simp) next fun o ho => hitems o (List.mem_cons_of_mem _ ho)]
    rfl

/-- A character of a joined header is one of the items, or a separator. -/
theorem mem_join {items : List String} {c : Char} (h : c ∈ (Text.join "; " items).toList) :
    (∃ o ∈ items, c ∈ o.toList) ∨ c = ';' ∨ c = ' ' := by
  induction items with
  | nil => simp [Text.join] at h
  | cons item items ih =>
    cases items with
    | nil => exact .inl ⟨item, List.mem_cons_self, h⟩
    | cons next items =>
      have hjoin : (Text.join "; " (item :: next :: items)).toList =
          item.toList ++ [';', ' '] ++ (Text.join "; " (next :: items)).toList := by
        simp [Text.join]
      rw [hjoin] at h
      simp only [List.mem_append, List.mem_cons, List.not_mem_nil, or_false] at h
      rcases h with (h | h) | h
      · exact .inl ⟨item, List.mem_cons_self, h⟩
      · exact .inr h
      · obtain ⟨o, ho, hc⟩ | hsep := ih h
        · exact .inl ⟨o, List.mem_cons_of_mem _ ho, hc⟩
        · exact .inr hsep

theorem headerText_join {items : List String} (hitems : ∀ o ∈ items, CookieText o) :
    headerText (Text.join "; " items) = some (Text.join "; " items) := by
  unfold headerText
  rw [if_pos]
  rw [List.all_eq_true]
  intro c hc
  simp only [Bool.or_eq_true, Bool.and_eq_true, decide_eq_true_eq, beq_iff_eq]
  right
  obtain ⟨o, ho, hc⟩ | rfl | rfl := mem_join hc
  · have hbounds := hitems o ho c hc
    constructor <;> omega
  · decide
  · decide

theorem trim_blank {o : String} (ho : CookieText o) : Text.trim (" " ++ o) = o := by
  have hblank : Text.isWhitespace ' ' = true := by decide
  have hdrop : Text.trim (" " ++ o) = Text.trim o := by
    simp [Text.trim, Text.stripBoth, hblank]
  rw [hdrop, Text.trim_eq_self ho.not_whitespace]

theorem cookieItem_blank {name o : String} (ho : CookieText o) : cookieItem name (" " ++ o) = cookieItem name o := by
  rw [cookieItem, cookieItem, trim_blank ho, Text.trim_eq_self ho.not_whitespace]

theorem findSome?_blank {name : String} {items : List String} (hitems : ∀ o ∈ items, CookieText o) :
    (items.map fun o => " " ++ o).findSome? (cookieItem name) = items.findSome? (cookieItem name) := by
  induction items with
  | nil => rfl
  | cons item items ih =>
    rw [List.map_cons, List.findSome?_cons, List.findSome?_cons, cookieItem_blank (hitems item List.mem_cons_self),
      ih fun o ho => hitems o (List.mem_cons_of_mem _ ho)]

/-- Of several cookies the first one of the name counts. -/
theorem extractCookieValue_join {headers : HeaderMap} {name : String} {items : List String} (hne : items ≠ [])
    (hitems : ∀ o ∈ items, CookieText o) (hcookie : headers.lookup "cookie" = some (Text.join "; " items)) :
    extractCookieValue headers name = items.findSome? (cookieItem name) := by
  obtain ⟨item, items, rfl⟩ := List.exists_cons_of_ne_nil hne
  have hchars := splitChars_join (l := []) List.not_mem_nil item items hitems
  rw [List.nil_append, List.nil_append] at hchars
  have hsplit : Text.split (Text.join "; " (item :: items)) ';' = item :: items.map fun o => " " ++ o := by
    rw [Text.split, hchars, List.map_cons, String.ofList_toList, List.map_map]
    refine congrArg _ (List.map_congr_left fun o _ => String.toList_inj.1 ?_)
    simp
  rw [extractCookieValue, hcookie, Option.bind_some, headerText_join hitems, Option.bind_some, hsplit,
    List.findSome?_cons, List.findSome?_cons, findSome?_blank fun o ho => hitems o (List.mem_cons_of_mem _ ho)]

/-! ## The cookie that is built -/

/-- What a browser keeps of a cookie that is set: the text before its attributes. -/
def cookiePair (setCookie : String) : String := (Text.split setCookie ';').headD ""

theorem splitOnce_append {c : Char} {s t : String} (h : c ∉ s.toList) :
    splitOnce c (s ++ String.singleton c ++ t) = some (s, t) := by
  have hne : ∀ d ∈ s.toList, (d != c) = true := fun d hd => bne_iff_ne.2 fun e => h (e ▸ hd)
  have hspan : (s ++ String.singleton c ++ t).toList.span (· != c) = (s.toList, c :: t.toList) := by
    rw [List.span_eq_takeWhile_dropWhile]
    simp only [String.toList_append, String.toList_singleton, List.append_assoc]
    rw [List.takeWhile_append_of_pos hne, List.dropWhile_append_of_pos hne]
    simp
  rw [splitOnce, hspan]
  simp

theorem cookieItem_pair {name value : String} (hname : '=' ∉ name.toList) (hpair : CookieText (name ++ "=" ++ value)) :
    cookieItem name (name ++ "=" ++ value) = some value := by
  rw [cookieItem, Text.trim_eq_self hpair.not_whitespace]
  have hsep : splitOnce '=' (name ++ "=" ++ value) = some (name, value) := splitOnce_append hname
  rw [hsep]
  simp

theorem cookieText_name : CookieText (adminSessionCookie ++ "=") := by
  have hall : ((adminSessionCookie ++ "=").toList.all fun c => decide (33 ≤ c.toNat ∧ c.toNat ≤ 126 ∧
    c ≠ ';')) = true := by
    decide
  exact fun c hc => of_decide_eq_true (List.all_eq_true.1 hall c hc)

theorem cookieAttributes_eq (maxAge : Int) :
    cookieAttributes maxAge = ";" ++ (" Path=/; HttpOnly; SameSite=Lax; Max-Age=" ++ toString maxAge) := by
  unfold cookieAttributes
  generalize toString maxAge = seconds
  refine String.toList_inj.1 ?_
  simp

/-- The pair is kept of the cookie that is built. -/
theorem cookiePair_build {value setCookie : String} {maxAge : Int} (hvalue : CookieText value)
    (h : buildSessionCookie value maxAge = .ok setCookie) : cookiePair setCookie = adminSessionCookie ++
      "=" ++ value := by
  have hpair := (cookieText_name.append hvalue).notMem
  unfold buildSessionCookie headerValue at h
  split at h
  · cases h
    rw [cookieAttributes_eq, cookiePair, Text.split]
    rw [← String.append_assoc, String.toList_append, String.toList_append, List.append_assoc]
    have hsemicolon : ";".toList = [';'] := by decide
    rw [hsemicolon, List.singleton_append, Text.splitChars_append_sep, Text.splitChars_of_notMem hpair,
      List.singleton_append, List.map_cons, List.headD_cons, String.ofList_toList]
  · cases h

/-- The cookie that is built for a token is read as the token, whatever cookies of other names come before it. -/
theorem extract_buildSessionCookie {value setCookie : String} {maxAge : Int} (hvalue : CookieText value)
    (h : buildSessionCookie value maxAge = .ok setCookie) {before after : List String}
    (hothers : ∀ o ∈ before ++ after, CookieText o) (hbefore : ∀ o ∈ before, cookieItem adminSessionCookie o = none)
    {headers : HeaderMap}
    (hcookie : headers.lookup "cookie" = some (Text.join "; " (before ++ cookiePair setCookie :: after))) :
    extractCookieValue headers adminSessionCookie = some value := by
  have hpair := cookieText_name.append hvalue
  rw [cookiePair_build hvalue h] at hcookie
  have hitems : ∀ o ∈ before ++ (adminSessionCookie ++ "=" ++ value) :: after, CookieText o := by
    intro o ho
    rcases List.mem_append.1 ho with ho | ho
    · exact hothers o (List.mem_append_left _ ho)
    · rcases List.mem_cons.1 ho with rfl | ho
      · exact hpair
      · exact hothers o (List.mem_append_right _ ho)
  rw [extractCookieValue_join (by simp) hitems hcookie, List.findSome?_append, List.findSome?_eq_none_iff.2 hbefore,
    List.findSome?_cons, cookieItem_pair (by decide) hpair]
  rfl

theorem cookieText_sessionToken (a b : Uuid) : CookieText (sessionToken a b) := by
  have hhex : ∀ d : ℕ, d < 16 → 33 ≤ d.digitChar.toNat ∧ d.digitChar.toNat ≤ 126 ∧ d.digitChar ≠ ';' := by
    intro d hd
    interval_cases d <;> decide
  have hstart : ∀ c ∈ ['a', 'd', 'm', '_'], 33 ≤ c.toNat ∧ c.toNat ≤ 126 ∧ c ≠ ';' := by
    intro c hc
    simp only [List.mem_cons, List.not_mem_nil, or_false] at hc
    rcases hc with rfl | rfl | rfl | rfl <;> decide
  intro c hc
  rw [sessionToken_toList, List.mem_append, List.mem_append] at hc
  rcases hc with (hc | hc) | hc
  · exact hstart c hc
  · obtain ⟨d, hd, rfl⟩ := Uuid.mem_hexDigits hc
    exact hhex d hd
  · obtain ⟨d, hd, rfl⟩ := Uuid.mem_hexDigits hc
    exact hhex d hd

/-! ## Sign-ins -/

/-- A reply sets the cookie of a token, under whose hash a session has been stored. -/
def SetsCookie (p : Platform) {α : Type} (reply : Reply α) (l : List (Made hubSig)) : Prop :=
  ∃ a b maxAge setCookie s, reply.setCookie = some setCookie ∧
    buildSessionCookie (sessionToken a b) maxAge = .ok setCookie ∧
    ⟨.saveAdminSession s, ()⟩ ∈ l ∧ s.sessionTokenHash = hashToken p (sessionToken a b)

/-- Any call may be made. -/
abbrev anySpec : Spec hubSig ((Front × HttpRequest) × List (Made hubSig)) := .remembering fun _ _ _ => True

section Programs

variable {p : Platform} {q : Front × HttpRequest}

theorem adminLogin_setsCookie {r : AdminLoginRequest} :
    wp anySpec (HubApi.adminLogin p r) (fun reply g => SetsCookie p reply g.2) (fun _ _ => True) (q, []) := by
  simp only [HubApi.adminLogin, loginAdmin, repo, wp_bind, wp_okOr, wp_ensure, wp_attempt, wp_call_protocol, wp_pure,
    implies_true, and_true, true_and]
  intro username _ _ found user _ _ _ _ a b sessionId expires created seen saved login touched now cookie hcookie
  refine ⟨a, b, _, cookie, ⟨sessionId, user.userId, hashToken p (sessionToken a b),
    expires + DateTime.hours adminSessionTtlHours, created, seen⟩, rfl, hcookie, ?_, rfl⟩
  simp [sessionToken]

theorem run_setsCookie {v : Visit} (hv : v.handler = .adminLogin) :
    wp anySpec (v.program p q.1) (fun reply g => SetsCookie p reply g.2) (fun _ _ => True) (q, []) := by
  obtain ⟨handler, args, headers⟩ := v
  dsimp only at hv
  subst hv
  rw [Visit.program, wp_map]
  exact adminLogin_setsCookie

/-- What a sign-in answers. -/
def AnswersSignIn (p : Platform) (r : Except HttpError (Reply Unit))
    (g : (Front × HttpRequest) × List (Made hubSig)) : Prop :=
  ∀ reply v, r = .ok reply → g.1.1.visit g.1.2 = .ok v → v.handler = .adminLogin → SetsCookie p reply g.2

theorem frontProgram_signIn (q : Front × HttpRequest) :
    Prog.wp anySpec (frontProgram p q) (AnswersSignIn p) (q, []) := by
  suffices hw : wp anySpec (q.1.program p q.2) (fun reply g => ∀ v, q.1.visit q.2 = .ok v → v.handler = .adminLogin →
      SetsCookie p reply g.2) (fun _ _ => True) (q, []) by
    refine Prog.wp_mono ?_ (Prog.wp_remembering (wp_iff_run.1 hw))
    rintro r g ⟨hr, hg⟩ reply v rfl
    rw [hg]
    exact hr v
  rw [Front.program]
  split
  · exact (wp_throw _).2 trivial
  · rename_i v hv
    rw [wp_mapError]
    by_cases hlogin : v.handler = .adminLogin
    · exact wp_mono (fun _ _ hg _ _ _ => hg) (fun _ _ h => h) (run_setsCookie hlogin)
    · refine wp_mono (fun reply g _ v' hv' hlogin' => ?_) (fun _ _ h => h)
        (wp_always (I := fun _ => True) (fun _ _ _ => trivial) (fun _ _ _ _ _ _ => trivial) _ trivial)
      obtain rfl : v = v' := Except.ok.inj (hv.symm.trans hv')
      exact absurd hlogin' hlogin

end Programs

/-! ## Live sessions -/

section Runs

variable {ι : Type} {p : Platform} {w : World} {tr : List (Event hubSig ι)}

/-- The call ends a session, or stores another one under its hash. -/
def Disturbs (s : AdminSessionRecord) : HubCall → Prop
  | .saveAdminSession s' => s'.sessionTokenHash = s.sessionTokenHash
  | .deleteAdminSession hash => hash = s.sessionTokenHash
  | .deleteAdminSessionsForUser userId exclude => userId = s.userId ∧ exclude ≠ some s.sessionTokenHash
  | _ => False

theorem adminUsers_kept {c : HubCall} {k : Uuid} (h : (w.store.adminUsers[k]?).isSome) :
    ((hubHandler p c w).2.store.adminUsers[k]?).isSome := by
  cases c with
  | saveAdminUser new =>
    simp only [hubHandler, World.write, MemoryState.saveAdminUser, Std.ExtTreeMap.getElem?_insert]
    split
    · rfl
    · exact h
  | touchAdminUserLogin userId login =>
    simp only [hubHandler, World.write, MemoryState.touchAdminUserLogin, Std.ExtTreeMap.getElem?_modify]
    split
    · rename_i heq
      rw [Option.isSome_map, Std.compare_eq_iff_eq.1 heq]
      exact h
    · exact h
  | deleteNode nodeId =>
    simp only [hubHandler, World.write, MemoryState.deleteNode]
    split <;> exact h
  | deleteSite siteId =>
    simp only [hubHandler, World.write, MemoryState.deleteSite]
    split <;> exact h
  | deleteDnsProvider providerId =>
    simp only [hubHandler, World.write, MemoryState.deleteDnsProvider]
    split <;> exact h
  | deleteOperationTemplate templateId =>
    simp only [hubHandler, World.write, MemoryState.deleteOperationTemplate]
    split <;> exact h
  | claimNextNodeOperation nodeId =>
    simp only [hubHandler, MemoryState.claimNextNodeOperation]
    split <;> exact h
  | _ => exact h

/-- A session of the user stands under the hash of `s`. -/
def Live (s : AdminSessionRecord) (w : World) : Prop :=
  ∃ s' : AdminSessionRecord, w.store.adminSessions[s.sessionTokenHash]? = some s' ∧ s'.userId = s.userId

theorem Live.kept {s : AdminSessionRecord} {c : HubCall} (h : Live s w) (hc : ¬ Disturbs s c) :
    Live s (hubHandler p c w).2 := by
  obtain ⟨s', hs', huser⟩ := h
  cases c with
  | saveAdminSession new =>
    refine ⟨s', ?_, huser⟩
    simp only [hubHandler, World.write, MemoryState.saveAdminSession, Std.ExtTreeMap.getElem?_insert]
    rw [if_neg (fun heq => hc (Std.compare_eq_iff_eq.1 heq))]
    exact hs'
  | touchAdminSession hash seen =>
    simp only [Live, hubHandler, World.write, MemoryState.touchAdminSession, Std.ExtTreeMap.getElem?_modify]
    split
    · rename_i heq
      rw [Std.compare_eq_iff_eq.1 heq, hs']
      exact ⟨_, rfl, huser⟩
    · exact ⟨s', hs', huser⟩
  | deleteAdminSession hash =>
    refine ⟨s', ?_, huser⟩
    simp only [hubHandler, World.write, MemoryState.deleteAdminSession, Std.ExtTreeMap.getElem?_erase]
    rw [if_neg (fun heq => hc (Std.compare_eq_iff_eq.1 heq))]
    exact hs'
  | deleteAdminSessionsForUser userId exclude =>
    refine ⟨s', ?_, huser⟩
    simp only [hubHandler, World.write, MemoryState.deleteAdminSessionsForUser, Std.ExtTreeMap.getElem?_filter', hs']
    refine Option.filter_eq_some_iff.2 ⟨rfl, ?_⟩
    rw [Bool.or_eq_true, bne_iff_ne, beq_iff_eq, huser]
    by_cases heq : userId = s.userId
    · exact .inr (not_not.1 fun hne => hc ⟨heq, fun he => hne he.symm⟩)
    · exact .inl (Ne.symm heq)
  | deleteNode nodeId =>
    simp only [hubHandler, World.write, MemoryState.deleteNode]
    split <;> exact ⟨s', hs', huser⟩
  | deleteSite siteId =>
    simp only [hubHandler, World.write, MemoryState.deleteSite]
    split <;> exact ⟨s', hs', huser⟩
  | deleteDnsProvider providerId =>
    simp only [hubHandler, World.write, MemoryState.deleteDnsProvider]
    split <;> exact ⟨s', hs', huser⟩
  | deleteOperationTemplate templateId =>
    simp only [hubHandler, World.write, MemoryState.deleteOperationTemplate]
    split <;> exact ⟨s', hs', huser⟩
  | claimNextNodeOperation nodeId =>
    simp only [hubHandler, MemoryState.claimNextNodeOperation]
    split <;> exact ⟨s', hs', huser⟩
  | _ => exact ⟨s', hs', huser⟩

/-- Who has been found stays, and a session is live until a call ends it. -/
structure LiveSessions (w : World) (tr : List (Event hubSig ι)) : Prop where
  users : ∀ (k : Uuid) (u : AdminUserRecord), w.store.adminUsers[k]? = some u → u.userId = k
  found : ∀ i username u, ⟨i, .adminUserByUsername username, some u⟩ ∈ tr → (w.store.adminUsers[u.userId]?).isSome
  live : ∀ before j s (after : List (Event hubSig ι)), tr = before ++ ⟨j, .saveAdminSession s, ()⟩ :: after →
    (∀ e ∈ after, ¬ Disturbs s e.call) → Live s w

theorem LiveSessions.step (h : LiveSessions w tr) (i : ι) (c : HubCall) :
    LiveSessions (hubHandler p c w).2 (tr ++ [⟨i, c, (hubHandler p c w).1⟩]) where
  users := adminUsers_keyed h.users
  found j username u hu := by
    rcases Pool.mem_concat hu with hold | ⟨rfl, rfl, hans⟩
    · exact adminUsers_kept (h.found j username u hold)
    · refine adminUsers_kept ?_
      obtain ⟨k, -, hk⟩ := Option.bind_eq_some_iff.1 hans.symm
      rw [h.users k u hk, hk]
      rfl
  live before j s after htr hafter := by
    rcases List.eq_nil_or_concat after with rfl | ⟨after', last, rfl⟩
    · -- the session is stored by this call
      obtain ⟨-, hlast⟩ := List.append_inj' htr rfl
      cases hlast
      exact ⟨s, by simp [hubHandler, World.write, MemoryState.saveAdminSession], rfl⟩
    · rw [List.concat_eq_append] at htr hafter
      rw [← List.cons_append, ← List.append_assoc] at htr
      obtain ⟨hold, hlast⟩ := List.append_inj' htr rfl
      obtain rfl := List.singleton_inj.1 hlast
      exact (h.live before j s after' hold fun e he => hafter e (List.mem_append_left _ he)).kept
        (hafter _ (List.mem_append_right _ (List.mem_singleton.2 rfl)))

variable [DecidableEq ι]

theorem liveSessions_exec {w₀ : World}
    (husers : ∀ (k : Uuid) (u : AdminUserRecord), w₀.store.adminUsers[k]? = some u → u.userId = k)
    (ms : List (Move ι (Front × HttpRequest))) :
    LiveSessions (Pool.exec (hubHandler p) (frontProgram p) (Pool.init w₀) ms).state
      (Pool.exec (hubHandler p) (frontProgram p) (Pool.init w₀) ms).trace := by
  have hall : Pool.Admits (hubHandler p) (frontProgram p) (fun _ _ => True) (Pool.init w₀) ms :=
    (Pool.admits_iff _ _).2 fun _ _ _ => trivial
  refine Pool.exec_invariant (I := fun P => LiveSessions P.state P.trace) (fun P m hP _ => ?_) ?_ hall
  · rcases Pool.move_cases (hubHandler p) (frontProgram p) P m with ⟨hstate, htrace⟩ | ⟨i, c, -, -, hstate, htrace⟩
    · rw [hstate, htrace]
      exact hP
    · rw [hstate, htrace]
      exact hP.step i c
  · refine ⟨husers, fun _ _ _ h => absurd h List.not_mem_nil, fun _ _ _ _ h => ?_⟩
    simp [Pool.init] at h

omit [DecidableEq ι] in
/-- What is found under the hash of a live session whose user has been found. -/
theorem LiveSessions.lookup (h : LiveSessions w tr) {s : AdminSessionRecord} (hlive : Live s w)
    (huser : (w.store.adminUsers[s.userId]?).isSome) :
    ∃ context, w.store.adminSessionByTokenHash s.sessionTokenHash = some context ∧ context.userId = s.userId := by
  obtain ⟨s', hs', hs'user⟩ := hlive
  obtain ⟨u, hu⟩ := Option.isSome_iff_exists.1 huser
  rw [MemoryState.adminSessionByTokenHash, hs', Option.bind_some, hs'user, hu]
  exact ⟨_, rfl, h.users _ u hu⟩

/-- The cookie leads to a session: headers that carry it among others are read as the token, and lookups of the token
find the user of the session until a call ends it. -/
structure Opens (p : Platform) (tr : List (Event hubSig ι)) (setCookie token : String)
    (s : AdminSessionRecord) : Prop where
  read : ∀ before after headers, (∀ o ∈ before ++ after, CookieText o) →
    (∀ o ∈ before, cookieItem adminSessionCookie o = none) →
    headers.lookup "cookie" = some (Text.join "; " (before ++ cookiePair setCookie :: after)) →
    extractCookieValue headers adminSessionCookie = some token
  found : ∀ before j (during : List (Event hubSig ι)) i answer after,
    tr = before ++ ⟨j, .saveAdminSession s, ()⟩ :: during ++
      ⟨i, .adminSessionByTokenHash (hashToken p token), answer⟩ :: after →
    (∀ e ∈ during, e.call ≠ .deleteAdminSession (hashToken p token) ∧
      ∀ exclude, e.call = .deleteAdminSessionsForUser s.userId exclude → exclude = some (hashToken p token)) →
    ∃ context, answer = some context ∧ context.userId = s.userId

/-- In every run, a sign-in that is answered sets a cookie that opens the session that it has stored for the user whose
password was shown, as long as fewer than `2 ^ 128` identifiers are drawn and no two session tokens of the run have the
same digest. -/
theorem sign_in_cookie_opens_session {hub : Hub} {setup : List Request} {ms : List (Move ι (Front × HttpRequest))}
    (hno : NoCollision p ms
      (Pool.exec (hubHandler p) (frontProgram p) (Pool.init (World.init.serveAll p hub setup)) ms).trace)
    {j : ι} {x : Front} {r : HttpRequest} (hj : Pool.asked ms j = some (x, r))
    (hmethod : r.method = .post) (hpath : r.path = "/api/admin/auth/login") {reply : Reply Unit}
    (hsessions : (World.init.serveAll p hub setup).store.adminSessions = ∅)
    (hfew : (Pool.exec (hubHandler p) (frontProgram p) (Pool.init (World.init.serveAll p hub setup))
      ms).state.nextUuid ≤ 16 ^ 32)
    (hanswer : (Pool.exec (hubHandler p) (frontProgram p) (Pool.init (World.init.serveAll p hub setup)) ms).result j =
      some (.ok reply)) :
    ∃ setCookie token s, reply.setCookie = some setCookie ∧
      ⟨.saveAdminSession s, ()⟩ ∈
        Pool.own (Pool.exec (hubHandler p) (frontProgram p) (Pool.init (World.init.serveAll p hub setup)) ms).trace j ∧
      SignsIn p (x, r)
        (Pool.own (Pool.exec (hubHandler p) (frontProgram p) (Pool.init (World.init.serveAll p hub setup)) ms).trace j)
        s.userId ∧
      Opens p (Pool.exec (hubHandler p) (frontProgram p) (Pool.init (World.init.serveAll p hub setup))
        ms).trace setCookie token s := by
  have husers := adminUsers_serveAll (p := p) hub setup
  generalize World.init.serveAll p hub setup = w₀ at hno hsessions husers hfew hanswer ⊢
  have hnone : ∀ hash : String, w₀.store.adminSessions[hash]? = none := fun hash => by rw [hsessions]; rfl
  have hsignIns := signIns_exec (p := p) husers hnone ms
  have htraces := sessionTrace_exec (p := p) w₀ ms
  -- the request is a sign-in, and so it sets a cookie
  obtain ⟨v, hv, -⟩ := answered_shows p w₀ _ hj hanswer
  obtain ⟨-, params, hroute⟩ := route_of_visit hv
  have hlogin := route_login
  rw [hmethod, hpath] at hroute
  rw [hroute] at hlogin
  obtain ⟨q, hq, hsigns⟩ := Pool.result_remembered frontProgram_signIn w₀ ms hanswer
  obtain rfl : q = (x, r) := Option.some.inj (hq.symm.trans hj)
  obtain ⟨a, b, maxAge, setCookie, s, hset, hbuild, hsaved, hhash⟩ := hsigns reply v rfl hv (Except.ok.inj hlogin)
  obtain ⟨q', hq', hsigned⟩ := hsignIns.signed j s (Pool.mem_own.1 hsaved)
  obtain rfl : q' = (x, r) := Option.some.inj (hq'.symm.trans hj)
  refine ⟨setCookie, sessionToken a b, s, hset, hsaved, hsigned, fun before after headers hothers hbefore hcookie => ?_,
    fun before k during i answer after htrace hduring => ?_⟩
  · exact extract_buildSessionCookie (cookieText_sessionToken a b) hbuild hothers hbefore hcookie
  · rw [← hhash] at htrace hduring
    obtain ⟨ms₁, -, hbeforeTrace, -, hans⟩ := Pool.at_event htrace (Nat.zero_le _)
    have hlive := liveSessions_exec (p := p) husers ms₁
    have hsignIns₁ := signIns_exec (p := p) husers hnone ms₁
    rw [hbeforeTrace] at hlive hsignIns₁
    -- the user of the session has been found
    have huser :
      ((Pool.exec (hubHandler p) (frontProgram p) (Pool.init w₀) ms₁).state.store.adminUsers[s.userId]?).isSome := by
      obtain ⟨_, -, _, _, -, username, u, -, hfound, -, -, hu⟩ :=
        hsignIns₁.signed k s (List.mem_append_right _ List.mem_cons_self)
      rw [← hu]
      exact hlive.found k username u (Pool.mem_own.1 hfound)
    -- other sessions stand under other hashes
    have hundisturbed : ∀ e ∈ during, ¬ Disturbs s e.call := by
      rintro ⟨l, c, ans⟩ he
      obtain ⟨hdelete, hall⟩ := hduring _ he
      dsimp only at hdelete hall ⊢
      cases c with
      | saveAdminSession s' =>
        have hshape := htrace.trans (List.append_assoc before (_ :: during) _)
        rw [List.cons_append, List.append_cons] at hshape
        exact (htraces.hashes_apart hno hfew hshape (List.mem_append_right _ (List.mem_singleton.2 rfl))
          (List.mem_append_left _ he)).symm
      | deleteAdminSession hash =>
        rintro rfl
        exact hdelete rfl
      | deleteAdminSessionsForUser userId exclude =>
        rintro ⟨rfl, hne⟩
        exact hne (hall exclude rfl)
      | _ => exact id
    obtain ⟨context, hcontext, hcontextUser⟩ := hlive.lookup (hlive.live before k s during rfl hundisturbed) huser
    exact ⟨context, hans.trans hcontext, hcontextUser⟩

end Runs

/-- A sign-in that is answered, and a use of its cookie. -/
def signInAndUse : List (Move Nat (Front × HttpRequest)) := signIn ++ .go 0 :: useCookie

theorem sign_in_cookie_opens_session_plain : ∃ (reply : Reply Unit) (setCookie token : String) (s : AdminSessionRecord),
    reply.setCookie = some setCookie ∧
    ⟨.saveAdminSession s, ()⟩ ∈
      Pool.own (Pool.exec (hubHandler .plain) (frontProgram .plain) (Pool.init oneAdmin) signInAndUse).trace 0 ∧
    SignsIn .plain (signInFront, withCookie .post "/api/admin/auth/login")
      (Pool.own (Pool.exec (hubHandler .plain) (frontProgram .plain)
        (Pool.init oneAdmin) signInAndUse).trace 0) s.userId ∧
    Opens .plain (Pool.exec (hubHandler .plain) (frontProgram .plain) (Pool.init oneAdmin) signInAndUse).trace setCookie
      token s := by
  obtain ⟨hresult, hfew⟩ :
      ((Pool.exec (hubHandler .plain) (frontProgram .plain) (Pool.init oneAdmin) signInAndUse).result 0).map
      (·.isOk) = some true ∧
      (Pool.exec (hubHandler .plain) (frontProgram .plain)
        (Pool.init oneAdmin) signInAndUse).state.nextUuid ≤ 16 ^ 32 := by
    decide +kernel
  rw [oneAdmin] at hfew
  obtain ⟨out, hout, hok⟩ := Option.map_eq_some_iff.1 hresult
  cases out with
  | error e => cases hok
  | ok reply =>
    have hasked : Pool.asked signInAndUse 0 = some (signInFront, withCookie .post "/api/admin/auth/login") := rfl
    exact ⟨reply, @sign_in_cookie_opens_session Nat .plain _ ⟨0, 30⟩
      [.ensureAdminUser "admin" "Admin" "secret-1"] signInAndUse (fun _ _ _ _ h => plain_sha256Hex_injective h) 0
        signInFront (withCookie .post "/api/admin/auth/login")
      hasked rfl rfl reply adminSessions_oneAdmin hfew hout⟩

end PingoraMesh.HubApi
