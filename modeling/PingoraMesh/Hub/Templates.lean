import PingoraMesh.Hub.Nodes
import PingoraMesh.Lib.Template

/-!
# Rendering a command

`render_command` puts the parameters of a template in one after another, each over the text that the others have left. A
value may complete a placeholder, and what comes out then depends on the order of the parameters.

* `renders_at_once_iff`: where rendering succeeds, it is one substitution in every order of the parameters, and no turn
  finds a placeholder that the template does not have, if and only if no placeholder of a parameter is completed by the
  values of the others;
* `value_is_scanned`: a value that is the placeholder of another parameter is replaced in its turn.
-/

namespace PingoraMesh.OperationTemplate

open Calls Template

/-- The text of a parameter, empty if it has none. -/
def paramValue (params : List (String × Value)) (key : String) : String := ((params.lookup key).bind paramText).getD ""

/-- The value of a hole whose key is one of the given ones. -/
def holeValue (params : List (String × Value)) (keys : List String) (key : List Char) : Option (List Char) :=
  if .ofList key ∈ keys then some (paramValue params (.ofList key)).toList else none

/-- The command template with the given parameters put in at once. -/
def filledIn (t : OperationTemplate) (params : List (String × Value)) (keys : List String) : String :=
  .ofList (fill (holeValue params keys) (pieces 0 t.commandTemplate.toList))

/-- How often the placeholder of a parameter occurs in a text. -/
def placeholders (key text : String) : Nat := occurrences (placeholder key).toList text.toList

/-- How many placeholders of a parameter the template has when the given ones are put in. -/
def remaining (t : OperationTemplate) (keys : List String) (key : String) : Nat :=
  if key ∈ keys then 0 else placeholders key t.commandTemplate

/-- In every order of the parameters the command is the template with all of them put in at once, and each turn finds
the placeholders of the template only. -/
structure RendersAtOnce (t : OperationTemplate) (params : List (String × Value)) : Prop where
  result : ∀ keys : List String, keys.Perm t.allowedParams →
    { t with allowedParams := keys }.renderCommand params = .ok (t.filledIn params t.allowedParams)
  scanned : ∀ (done : List String) (key : String) (todo : List String) (rendered : String),
    (done ++ key :: todo).Perm t.allowedParams → done.foldlM (renderParam params) t.commandTemplate = .ok rendered →
      placeholders key rendered = t.remaining done key

/-- No placeholder of a parameter is completed when the others are put in at once. -/
def NoneCompleted (t : OperationTemplate) (params : List (String × Value)) : Prop :=
  ∀ key ∈ t.allowedParams,
    placeholders key (t.filledIn params (t.allowedParams.erase key)) = t.remaining (t.allowedParams.erase key) key

section Render

variable {t : OperationTemplate} {params : List (String × Value)} {key rendered : String} {keys : List String}

theorem toList_placeholder (key : String) : (placeholder key).toList = hole key.toList := by
  simp [placeholder, hole]

theorem toList_filledIn (t : OperationTemplate) (params : List (String × Value)) (keys : List String) :
    (t.filledIn params keys).toList = fill (holeValue params keys) (pieces 0 t.commandTemplate.toList) := by
  rw [filledIn, String.toList_ofList]

theorem holeValue_toList (params : List (String × Value)) (keys : List String) (key : String) :
    holeValue params keys key.toList = if key ∈ keys then some (paramValue params key).toList else none := by
  simp [holeValue]

/-- One more parameter is put in. -/
theorem holeValue_concat (params : List (String × Value)) (keys : List String) (key : String) :
    holeValue params (keys ++ [key]) =
      Function.update (holeValue params keys) key.toList (some (paramValue params key).toList) := by
  funext k
  by_cases hk : k = key.toList
  · subst hk
    rw [Function.update_self, holeValue_toList, if_pos (by simp)]
  · have hne : String.ofList k ≠ key := fun e => hk (by rw [← e, String.toList_ofList])
    rw [Function.update_of_ne hk, holeValue, holeValue]
    simp [hne]

/-- With no parameter put in, it is the template. -/
theorem filledIn_nil : t.filledIn params [] = t.commandTemplate := by
  have hnone : holeValue params [] = fun _ => none := by
    funext key
    simp [holeValue]
  rw [filledIn, hnone, fill_pieces, String.ofList_toList]

theorem filledIn_congr {keys' : List String} (h : ∀ key, key ∈ keys ↔ key ∈ keys') :
    t.filledIn params keys = t.filledIn params keys' := by
  have hsame : holeValue params keys = holeValue params keys' := by
    funext key
    simp [holeValue, h]
  rw [filledIn, hsame, filledIn]

variable (params) in
theorem remaining_eq_left (hplain : Plain key.toList) (keys : List String) :
    t.remaining keys key = left (holeValue params keys) key.toList (pieces 0 t.commandTemplate.toList) := by
  rw [remaining, left, holeValue_toList, count_pieces hplain, placeholders, toList_placeholder]
  split
  · simp
  · simp

theorem contains_placeholder_iff : Text.contains rendered (placeholder key) = true ↔ 0 < placeholders key rendered := by
  rw [Text.contains, placeholders]
  exact (occurrences_pos_iff (by rw [toList_placeholder]; exact hole_ne_nil _)).symm

/-- A turn of the loop puts a parameter in, if it finds the placeholders of the template only. -/
theorem renderParam_filledIn (hplain : Plain key.toList)
    (hscan : placeholders key (t.filledIn params keys) = t.remaining keys key)
    (h : renderParam params (t.filledIn params keys) key = .ok rendered) :
    rendered = t.filledIn params (keys ++ [key]) := by
  have hps := plainPieces_pieces t.commandTemplate.toList
  have hscan' := hscan
  rw [remaining_eq_left params hplain, placeholders, toList_placeholder, toList_filledIn] at hscan'
  unfold renderParam at h
  split at h
  · rename_i hfound
    have hfree : key ∉ keys := by
      intro hmem
      have hpos := contains_placeholder_iff.1 hfound
      rw [hscan, remaining, if_pos hmem] at hpos
      omega
    have hnone : holeValue params keys key.toList = none := by rw [holeValue_toList, if_neg hfree]
    split at h
    · cases h
    · split at h
      · cases h
      · rename_i _ value hvalue _ text htext
        rw [← Except.ok.inj h]
        have hparam : paramValue params key = text := by simp [paramValue, hvalue, htext]
        rw [Text.replace, toList_filledIn, toList_placeholder, replaceChars_fill hplain hps hnone hscan', filledIn]
        rw [holeValue_concat, hparam]
  · rename_i hmissing
    rw [← Except.ok.inj h]
    have hzero : placeholders key (t.filledIn params keys) = 0 := by
      by_contra hne
      exact hmissing (contains_placeholder_iff.2 (Nat.pos_of_ne_zero hne))
    by_cases hmem : key ∈ keys
    · exact filledIn_congr fun k => by simp; rintro rfl; exact hmem
    · have hnone : holeValue params keys key.toList = none := by rw [holeValue_toList, if_neg hmem]
      have hleft : left (holeValue params keys) key.toList (pieces 0 t.commandTemplate.toList) = 0 := by
        rw [← remaining_eq_left params hplain, ← hscan, hzero]
      rw [filledIn, filledIn, holeValue_concat, fill_update hnone hleft]

/-- As long as each turn finds the placeholders of the template only, it is the template with what was put in. -/
theorem foldlM_filledIn (hplain : ∀ key ∈ keys, Plain key.toList)
    (hscan : ∀ (done : List String) (key : String) (todo : List String), keys = done ++ key :: todo →
      done.foldlM (renderParam params) t.commandTemplate = .ok (t.filledIn params done) →
        placeholders key (t.filledIn params done) = t.remaining done key)
    (h : keys.foldlM (renderParam params) t.commandTemplate = .ok rendered) : rendered = t.filledIn params keys := by
  induction keys using List.reverseRecOn generalizing rendered with
  | nil =>
    rw [filledIn_nil]
    exact (Except.ok.inj h).symm
  | append_singleton keys key ih =>
    rw [List.foldlM_append] at h
    obtain ⟨before, hbefore, hlast⟩ := bind_eq_ok.1 h
    have hsame : before = t.filledIn params keys := by
      refine ih (fun k hk => hplain k (List.mem_append_left _ hk)) (fun done k todo e hdone => ?_) hbefore
      exact hscan done k (todo ++ [key]) (by rw [e]; simp) hdone
    subst hsame
    rw [List.foldlM_cons] at hlast
    obtain ⟨after, hturn, hend⟩ := bind_eq_ok.1 hlast
    rw [← Except.ok.inj hend]
    exact renderParam_filledIn (hplain key (by simp)) (hscan keys key [] rfl hbefore) hturn

/-- The parameters that are put in before a turn are among the others. -/
theorem mem_erase_of_split {done todo allowed : List String} (h : (done ++ key :: todo).Perm allowed) {k : String}
    (hk : k ∈ done) : k ∈ allowed.erase key := by
  have hmiddle : (key :: (done ++ todo)).Perm allowed := List.perm_middle.symm.trans h
  have herase : (done ++ todo).Perm (allowed.erase key) := List.cons_perm_iff_perm_erase.1 hmiddle |>.2
  exact herase.subset (List.mem_append_left _ hk)

/-- If no placeholder is completed by all the others, none is completed by some of them. -/
theorem NoneCompleted.scans (hplain : ∀ key ∈ t.allowedParams, Plain key.toList) (h : NoneCompleted t params)
    {done todo : List String} (hperm : (done ++ key :: todo).Perm t.allowedParams) :
    placeholders key (t.filledIn params done) = t.remaining done key := by
  have hkey : key ∈ t.allowedParams := hperm.subset (by simp)
  have hps := plainPieces_pieces t.commandTemplate.toList
  have hall := h key hkey
  have hmono : ∀ k v, holeValue params done k = some v → holeValue params (t.allowedParams.erase key) k = some v := by
    intro k v hv
    unfold holeValue at hv ⊢
    split at hv
    · rename_i hmem
      rw [if_pos (mem_erase_of_split hperm hmem)]
      exact hv
    · cases hv
  have hle := occurrences_fill_mono (hplain key hkey) hps hmono
  have hleft := left_le_occurrences (f := holeValue params done) (hplain key hkey) hps
  rw [remaining_eq_left params (hplain key hkey), placeholders, toList_placeholder, toList_filledIn] at hall ⊢
  omega

/-- The loop puts in what it has seen, in every order. -/
theorem NoneCompleted.foldlM_eq (hplain : ∀ key ∈ t.allowedParams, Plain key.toList) (h : NoneCompleted t params)
    {done todo : List String} (hperm : (done ++ key :: todo).Perm t.allowedParams)
    (hdone : done.foldlM (renderParam params) t.commandTemplate = .ok rendered) :
      rendered = t.filledIn params done := by
  refine foldlM_filledIn (fun k hk => hplain k (hperm.subset (List.mem_append_left _ hk)))
    (fun d k rest e _ => ?_) hdone
  have hlist : d ++ k :: (rest ++ key :: todo) = done ++ key :: todo := by rw [e]; simp
  rw [← hlist] at hperm
  exact h.scans hplain hperm

/-- The parameters of a template in another order accept the same ones. -/
theorem find?_unknown_perm {keys : List String} (h : keys.Perm t.allowedParams) (params : List (String × Value)) :
    (params.find? fun param => !keys.contains param.1) = params.find?
      fun param => !t.allowedParams.contains param.1 := by
  have hsame : ∀ k, keys.contains k = t.allowedParams.contains k := fun k => by
    rw [Bool.eq_iff_iff, List.contains_iff_mem, List.contains_iff_mem]
    exact h.mem_iff
  simp only [hsame]

/-- A turn that finds a placeholder has a value for it. -/
theorem isSome_of_renderParam {before : String} (hpos : 0 < placeholders key before)
    (h : renderParam params before key = .ok rendered) : ((params.lookup key).bind paramText).isSome := by
  rw [renderParam, if_pos (contains_placeholder_iff.2 hpos)] at h
  split at h
  · cases h
  · split at h
    · cases h
    · rename_i _ value hvalue _ text htext
      rw [hvalue, Option.bind_some, htext]
      rfl

/-- A turn that has a value for the placeholders it finds puts it in. -/
theorem renderParam_ok (hplain : Plain key.toList) (hscan : placeholders key (t.filledIn params keys) =
    t.remaining keys key)
    (hvalue : 0 < placeholders key t.commandTemplate → ((params.lookup key).bind paramText).isSome) :
    renderParam params (t.filledIn params keys) key = .ok (t.filledIn params (keys ++ [key])) := by
  have hturn : ∃ rendered, renderParam params (t.filledIn params keys) key = .ok rendered := by
    unfold renderParam
    split
    · rename_i hfound
      have hpos := contains_placeholder_iff.1 hfound
      rw [hscan, remaining] at hpos
      have hsome : ((params.lookup key).bind paramText).isSome := by
        refine hvalue ?_
        split at hpos
        · omega
        · exact hpos
      obtain ⟨text, htext⟩ := Option.isSome_iff_exists.1 hsome
      obtain ⟨value, hlookup, htext⟩ := Option.bind_eq_some_iff.1 htext
      rw [hlookup]
      dsimp only
      rw [htext]
      exact ⟨_, rfl⟩
    · exact ⟨_, rfl⟩
  obtain ⟨rendered, hturn⟩ := hturn
  rw [hturn, renderParam_filledIn hplain hscan hturn]

/-- The loop, if each turn has a value for the placeholders it finds, and they are those of the template. -/
theorem foldlM_ok (hplain : ∀ key ∈ keys, Plain key.toList)
    (hscan : ∀ (done : List String) (key : String) (todo : List String), keys = done ++ key :: todo →
      placeholders key (t.filledIn params done) = t.remaining done key)
    (hvalue : ∀ key ∈ keys, 0 < placeholders key t.commandTemplate → ((params.lookup key).bind paramText).isSome) :
    keys.foldlM (renderParam params) t.commandTemplate = .ok (t.filledIn params keys) := by
  induction keys using List.reverseRecOn with
  | nil =>
    rw [filledIn_nil]
    rfl
  | append_singleton keys key ih =>
    have hbefore := ih (fun k hk => hplain k (List.mem_append_left _ hk))
      (fun done k todo e => hscan done k (todo ++ [key]) (by rw [e]; simp))
      fun k hk => hvalue k (List.mem_append_left _ hk)
    have hturn := renderParam_ok (hplain key (by simp)) (hscan keys key [] rfl) (hvalue key (by simp))
    rw [List.foldlM_append]
    refine bind_eq_ok.2 ⟨_, hbefore, ?_⟩
    rw [List.foldlM_cons]
    exact bind_eq_ok.2 ⟨_, hturn, rfl⟩

/-- Rendering is the check of the names and the loop. -/
theorem renderCommand_eq_ok : t.renderCommand params = .ok rendered ↔
    (params.find? fun param => !t.allowedParams.contains param.1) = none ∧
      t.allowedParams.foldlM (renderParam params) t.commandTemplate = .ok rendered := by
  unfold renderCommand
  split
  · rename_i heq
    constructor
    · intro h
      cases h
    · rintro ⟨h, -⟩
      rw [h] at heq
      cases heq
  · rename_i heq
    exact ⟨fun h => ⟨heq, h⟩, fun h => h.2⟩

/-- Where rendering succeeds and no placeholder is completed, each placeholder of the template has a value. -/
theorem NoneCompleted.values (hplain : ∀ key ∈ t.allowedParams, Plain key.toList) (h : NoneCompleted t params)
    (hok : t.renderCommand params = .ok rendered) (hkey : key ∈ t.allowedParams)
    (hpos : 0 < placeholders key t.commandTemplate) : ((params.lookup key).bind paramText).isSome := by
  obtain ⟨-, hloop⟩ := renderCommand_eq_ok.1 hok
  obtain ⟨done, todo, hsplit, hfirst⟩ := List.eq_append_cons_of_mem hkey
  rw [hsplit, List.foldlM_append] at hloop
  obtain ⟨before, hbefore, hrest⟩ := bind_eq_ok.1 hloop
  rw [List.foldlM_cons] at hrest
  obtain ⟨after, hturn, -⟩ := bind_eq_ok.1 hrest
  have hperm : (done ++ key :: todo).Perm t.allowedParams := by rw [hsplit]
  rw [h.foldlM_eq hplain hperm hbefore] at hturn
  refine isSome_of_renderParam ?_ hturn
  rw [h.scans hplain hperm, remaining, if_neg hfirst]
  exact hpos

end Render

/-- **Rendering is one substitution** in every order of the parameters if and only if no placeholder of a parameter is
completed by the values of the others. -/
theorem renders_at_once_iff (t : OperationTemplate) (params : List (String × Value))
    (hplain : ∀ key ∈ t.allowedParams, '{' ∉ key.toList ∧ '}' ∉ key.toList)
    (hok : (t.renderCommand params).isOk = true) : RendersAtOnce t params ↔ NoneCompleted t params := by
  obtain ⟨command, hok⟩ : ∃ command, t.renderCommand params = .ok command := by
    cases h : t.renderCommand params with
    | ok command => exact ⟨command, rfl⟩
    | error e =>
      rw [h] at hok
      cases hok
  constructor
  · intro h key hkey
    -- the others are put in first
    have hperm : (t.allowedParams.erase key ++ [key]).Perm t.allowedParams :=
      List.perm_append_singleton _ _ |>.trans (List.perm_cons_erase hkey).symm
    obtain ⟨-, hloop⟩ := renderCommand_eq_ok.1 (h.result _ hperm)
    rw [List.foldlM_append] at hloop
    obtain ⟨before, hbefore, -⟩ := bind_eq_ok.1 hloop
    have hsame : before = t.filledIn params (t.allowedParams.erase key) := by
      refine foldlM_filledIn (fun k hk => hplain k (List.mem_of_mem_erase hk)) (fun done k todo e hdone => ?_) hbefore
      refine h.scanned done k (todo ++ [key]) _ ?_ hdone
      rw [← List.cons_append, ← List.append_assoc, ← e]
      exact hperm
    rw [hsame] at hbefore
    exact h.scanned _ key [] _ hperm hbefore
  · intro h
    constructor
    · intro keys hperm
      refine renderCommand_eq_ok.2 ⟨?_, ?_⟩
      · exact (find?_unknown_perm hperm params).trans (renderCommand_eq_ok.1 hok).1
      · rw [filledIn_congr fun key => hperm.mem_iff.symm]
        refine foldlM_ok (fun k hk => hplain k (hperm.subset hk)) (fun done k todo e => ?_) fun k hk hpos => ?_
        · have hsplit : keys = done ++ k :: todo := e
          rw [hsplit] at hperm
          exact h.scans hplain hperm
        · exact h.values hplain hok (hperm.subset hk) hpos
    · intro done key todo rendered hperm hdone
      rw [h.foldlM_eq hplain hperm hdone]
      exact h.scans hplain hperm

instance (t : OperationTemplate) (params : List (String × Value)) : Decidable (NoneCompleted t params) :=
  inferInstanceAs (Decidable (∀ key ∈ t.allowedParams, _ = _))

/-- A template with two parameters. -/
def unitCommand : OperationTemplate where
  name := "unit"
  kind := .serviceReload
  commandTemplate := "systemctl \x7b\x7bverb\x7d\x7d \x7b\x7bunit\x7d\x7d"
  allowedParams := ["unit", "verb"]
  timeoutSeconds := 30

/-- Ordinary values are put in at once. -/
theorem renders_at_once_restart :
    RendersAtOnce unitCommand [("unit", .string "pingora"), ("verb", .string "restart")] ∧
      unitCommand.renderCommand [("unit", .string "pingora"), ("verb", .string "restart")] =
        .ok "systemctl restart pingora" :=
  ⟨(renders_at_once_iff unitCommand _ (by decide) (by decide +kernel)).2 (by decide +kernel), by decide +kernel⟩

/-- The value of the first parameter is the placeholder of the second, whose turn comes later. -/
theorem value_is_scanned :
    (∀ key ∈ unitCommand.allowedParams, '{' ∉ key.toList ∧ '}' ∉ key.toList) ∧
      unitCommand.renderCommand [("unit", .string "\x7b\x7bverb\x7d\x7d"), ("verb", .string "stop")] =
        .ok "systemctl stop stop" ∧
      ¬ RendersAtOnce unitCommand [("unit", .string "\x7b\x7bverb\x7d\x7d"), ("verb", .string "stop")] := by
  have hcommand : unitCommand.renderCommand [("unit", .string "\x7b\x7bverb\x7d\x7d"), ("verb", .string "stop")] =
      .ok "systemctl stop stop" := by
    decide +kernel
  refine ⟨by decide, hcommand, fun h => ?_⟩
  have hone := h.result unitCommand.allowedParams (.refl _)
  have hone := Except.ok.inj (hcommand.symm.trans hone)
  have hfilled : unitCommand.filledIn [("unit", .string "\x7b\x7bverb\x7d\x7d"), ("verb", .string "stop")]
      unitCommand.allowedParams = "systemctl stop \x7b\x7bverb\x7d\x7d" := by
    decide +kernel
  rw [hfilled] at hone
  exact absurd hone (by decide)

end PingoraMesh.OperationTemplate
