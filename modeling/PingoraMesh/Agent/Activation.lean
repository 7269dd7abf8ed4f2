import PingoraMesh.Agent.Acks
import PingoraMesh.Lib.Prog
import PingoraMesh.Lib.Replace

/-!
# The active files of a node

`activate_release_artifacts` replaces four files one after another, each in place. The runs of `sync_latest_release`
come one after another here; each may be stopped between any two of its calls, and each starts with any local state
and any surroundings, so that whatever happens between two runs is covered.

* `Activations` is what the calls tell of the activations: the packages of those that were begun, and how many files
  of the last one are in place: all four once the activation has returned `Ok`, and fewer if it fails
  (`activateReleaseArtifacts_wp`).
* `current_files_in_order`: of two of the files, the one that is written first is from an activation that is no older;
  after an activation that returned `Ok` and until the next one begins all four are from its package, and a run that
  goes on records that package as the current release.
-/

namespace PingoraMesh.NodeAgent

open Calls Calls.Fallible

/-! ## The files and who writes them -/

/-- The files that say what is active on the node. -/
inductive CurrentFile where
  | releaseVersion
  | manifest
  | renderedConfig
  | certificates
  deriving DecidableEq, Repr

namespace CurrentFile

/-- In the order in which `activate_release_artifacts` writes them. -/
def all : List CurrentFile := [.releaseVersion, .manifest, .renderedConfig, .certificates]

def file : CurrentFile → AgentFile
  | .releaseVersion => .currentReleaseVersion
  | .manifest => .currentManifest
  | .renderedConfig => .currentRenderedConfig
  | .certificates => .currentCertificates

/-- What a package has for the file. -/
def body (package : ConfigPackageResponse) : CurrentFile → FileBody
  | .releaseVersion => .text package.releaseVersion
  | .manifest => .json package.manifest
  | .renderedConfig => .json package.renderedConfig
  | .certificates => .json package.certificates

theorem mem_all (k : CurrentFile) : k ∈ all := by cases k <;> simp [all]

theorem nodup_all : all.Nodup := by decide

end CurrentFile

/-- The file as one of the active ones. -/
def AgentFile.current? : AgentFile → Option CurrentFile
  | .currentReleaseVersion => some .releaseVersion
  | .currentManifest => some .manifest
  | .currentRenderedConfig => some .renderedConfig
  | .currentCertificates => some .certificates
  | _ => none

theorem AgentFile.current?_eq_some {file : AgentFile} {k : CurrentFile} : file.current? = some k ↔ file = k.file := by
  cases file <;> cases k <;> simp [current?, CurrentFile.file]

theorem CurrentFile.file_injective {k k' : CurrentFile} (h : k.file = k'.file) : k = k' := by
  have hk := AgentFile.current?_eq_some.2 h
  rw [AgentFile.current?_eq_some.2 rfl] at hk
  exact Option.some.inj hk

/-- The packages of the activations that were begun, oldest first, and how many files of the last one are in place. -/
structure Activations where
  begun : List ConfigPackageResponse := []
  placed : Nat := 0

/-- What a call and its answer tell. An activation begins when `apply_release_package` has ended well. -/
def Activations.see (a : Activations) : (c : AgentCall) → c.Ans → Activations
  | .applyReleasePackage _ package _ _, .ok _ => { begun := a.begun ++ [package] }
  | .writeFile file _, .ok _ => if file.current?.isSome then { a with placed := a.placed + 1 } else a
  | _, _ => a

section Runs

variable {η : Type} (net : Handler OutsideSig η) (config : AgentConfig)

/-- A node whose activations are watched. -/
abbrev watchedHandler : Handler AgentSig (Node η × Activations) :=
  Prog.observing (agentHandler net config) Activations.see

/-- A run of `sync_latest_release`: what it starts with, and after how many calls the process stops, if it does. -/
structure SyncRun (η : Type) where
  registration : RegistrationMetadata
  state : LocalAgentState
  session : Session
  env : η
  stop : Option Nat

/-- The program of a run. -/
def SyncRun.sync (run : SyncRun η) : SyncM (SyncAction × LocalAgentState) :=
  syncLatestRelease config run.registration run.state run.session

/-- The node at the start of a run. -/
def SyncRun.enter (run : SyncRun η) (g : Node η × Activations) : Node η × Activations :=
  ({ g.1 with env := run.env }, g.2)

/-- The node after a run. -/
def SyncRun.leave (run : SyncRun η) (g : Node η × Activations) : Node η × Activations :=
  match run.stop with
  | none => (Fallible.run (watchedHandler net config) (run.sync config) (run.enter g)).2
  | some n => (Prog.runFor (watchedHandler net config) n (ExceptT.run (run.sync config)) (run.enter g)).2

/-- The node after some runs, one after another. -/
def syncRuns (node : Node η) (runs : List (SyncRun η)) : Node η × Activations :=
  runs.foldl (fun g run => run.leave net config g) (node, {})

end Runs

/-- The local state that a run gives back, with an error too. -/
def stateOf : Except (LocalAgentState × Failure) (SyncAction × LocalAgentState) → LocalAgentState
  | .ok (_, state) => state
  | .error (state, _) => state

/-! ## What the calls do -/

section Calls

variable {η : Type} {net : Handler OutsideSig η} {config : AgentConfig} {initial : CurrentFile → Option FileBody}

/-- The active files as they come from the activations. -/
def FilesMixed (initial : CurrentFile → Option FileBody) (g : Node η × Activations) : Prop :=
  Replace.Mixed (fun package k => CurrentFile.body package k) .torn initial CurrentFile.all g.2.begun g.2.placed
    fun k => g.1.disk k.file

/-- An active file is written in its turn, with what the package of the last activation has for it. -/
def Prescribed : AgentCall → Node η × Activations → Prop
  | .writeFile file body, g => ∀ k, file.current? = some k →
    CurrentFile.all[g.2.placed]? = some k ∧ ∃ package ∈ g.2.begun.getLast?, body = k.body package
  | _, _ => True

/-- A write is done, or it fails and leaves the file as it was or torn. -/
theorem write_cases (net : Handler OutsideSig η) (config : AgentConfig) (file : AgentFile) (body : FileBody)
    (node : Node η) :
    ((agentHandler net config (.writeFile file body) node).1 = .ok () ∧
      (agentHandler net config (.writeFile file body) node).2.disk = Function.update node.disk file (some body)) ∨
    ∃ cause, (agentHandler net config (.writeFile file body) node).1 = .error cause ∧
      ((agentHandler net config (.writeFile file body) node).2.disk = node.disk ∨
        (agentHandler net config (.writeFile file body) node).2.disk = Function.update node.disk file
          (some .torn)) := by
  simp only [agentHandler]
  split
  · exact .inl ⟨rfl, rfl⟩
  · rename_i cause _
    exact .inr ⟨cause, rfl, .inl rfl⟩
  · rename_i cause _
    exact .inr ⟨cause, rfl, .inr rfl⟩

theorem file_ne {file : AgentFile} (h : file.current? = none) (k : CurrentFile) : k.file ≠ file := by
  rintro rfl
  rw [AgentFile.current?_eq_some.2 rfl] at h
  cases h

/-- A call as it is prescribed keeps the active files in order. -/
theorem prescribed_keeps (c : AgentCall) (g : Node η × Activations) (hc : Prescribed c g) (hg : FilesMixed initial g) :
    FilesMixed initial (watchedHandler net config c g).2 := by
  cases c with
  | outside c => exact hg
  | readFile file => exact hg
  | applyReleasePackage registration package artifacts state =>
    show FilesMixed initial (_, Activations.see _ _ (agentHandler net config _ g.1).1)
    cases (agentHandler net config (.applyReleasePackage registration package artifacts state) g.1).1 with
    | error e => exact hg
    | ok message => exact hg.begin package
  | writeFile file body =>
    have hcases := write_cases net config file body g.1
    show FilesMixed initial ((agentHandler net config (.writeFile file body) g.1).2,
      Activations.see g.2 (.writeFile file body) (agentHandler net config (.writeFile file body) g.1).1)
    generalize agentHandler net config (.writeFile file body) g.1 = out at hcases ⊢
    cases hfile : file.current? with
    | none =>
      -- another file
      have hsame : ∀ k : CurrentFile, out.2.disk k.file = g.1.disk k.file := by
        intro k
        rcases hcases with ⟨-, hd⟩ | ⟨cause, -, hd | hd⟩
        · rw [hd, Function.update_of_ne (file_ne hfile k)]
        · rw [hd]
        · rw [hd, Function.update_of_ne (file_ne hfile k)]
      have hsee : Activations.see g.2 (.writeFile file body) out.1 = g.2 := by
        cases out.1 with
        | ok u => simp [Activations.see, hfile]
        | error cause => rfl
      rw [hsee]
      exact Replace.Mixed.congr hg fun k _ => hsame k
    | some k =>
      obtain ⟨hturn, package, hlast, rfl⟩ := hc k hfile
      obtain rfl := AgentFile.current?_eq_some.1 hfile
      have hother : ∀ b : FileBody, ∀ j : CurrentFile, j ≠ k →
          Function.update g.1.disk k.file (some b) j.file = g.1.disk j.file := by
        intro b j hj
        exact Function.update_of_ne (fun e => hj (CurrentFile.file_injective e)) ..
      rcases hcases with ⟨ha, hd⟩ | ⟨cause, ha, hd | hd⟩
      · rw [ha]
        have hsee : Activations.see g.2 (.writeFile k.file (k.body package)) (.ok ()) =
            { g.2 with placed := g.2.placed + 1 } := by simp [Activations.see, hfile]
        rw [hsee]
        refine Replace.Mixed.write hg CurrentFile.nodup_all hturn hlast ?_ fun j hj => ?_
        · show out.2.disk k.file = _
          rw [hd, Function.update_self]
        · show out.2.disk j.file = _
          rw [hd, hother _ j hj]
      · rw [ha]
        refine Replace.Mixed.congr hg fun j _ => ?_
        show out.2.disk j.file = _
        rw [hd]
      · rw [ha]
        refine Replace.Mixed.spoil hg CurrentFile.nodup_all hturn hlast (k := k) ?_ fun j hj => ?_
        · show out.2.disk k.file = _
          rw [hd, Function.update_self]
        · show out.2.disk j.file = _
          rw [hd, hother _ j hj]

/-- The rules of a run on a watched node. -/
abbrev watchedSpec (net : Handler OutsideSig η) (config : AgentConfig) (initial : CurrentFile → Option FileBody) :
    Spec AgentSig (Node η × Activations) :=
  .alone (watchedHandler net config) Prescribed (FilesMixed initial)

/-! ## Programs that leave the disk alone -/

/-- A call of the surroundings. -/
def AgentCall.Elsewhere : AgentCall → Prop
  | .outside _ => True
  | _ => False

variable {g : Node η × Activations} {disk : AgentFile → Option FileBody} {a : Activations}

theorem reportReleaseStatus_elsewhere (registration : RegistrationMetadata) (session : Session) (releaseId : Uuid)
    (applyStatus currentVersion : String) (message : Option String) :
    (reportReleaseStatus config registration session releaseId applyStatus currentVersion message).Only
      AgentCall.Elsewhere :=
  safe_bind (only_call (S := AgentSig) trivial) fun _ => safe_attempt _

theorem getLatestRelease_elsewhere (registration : RegistrationMetadata) (session : Session) :
    (getLatestRelease config registration session).Only AgentCall.Elsewhere :=
  safe_bind (only_call (S := AgentSig) trivial) fun _ => safe_attempt _

theorem getConfigPackage_elsewhere (session : Session) (downloadUrl : String) :
    (getConfigPackage config session downloadUrl).Only AgentCall.Elsewhere :=
  safe_bind (only_call (S := AgentSig) trivial) fun _ => safe_attempt _

theorem createDirAll_elsewhere (dir : String) : (createDirAll dir).Only AgentCall.Elsewhere := by
  refine safe_bind (only_call (S := AgentSig) trivial) fun r => ?_
  cases r with
  | none => exact safe_pure _
  | some cause => exact safe_throw _

/-- A program of such calls changes nothing on the disk. -/
theorem elsewhere_wp {α ε : Type} {x : Fallible AgentSig ε α} (hx : x.Only AgentCall.Elsewhere)
    (hd : g.1.disk = disk) (ha : g.2 = a) :
    wp (watchedSpec net config initial) x (fun _ g' => g'.1.disk = disk ∧ g'.2 = a)
      (fun _ g' => g'.1.disk = disk ∧ g'.2 = a) g := by
  apply hx.wp (I := fun g' : Node η × Activations => g'.1.disk = disk ∧ g'.2 = a)
  · intro c g hc _
    cases c with
    | outside c => trivial
    | _ => exact hc.elim
  · rintro c g r g' hc hg ⟨-, rfl, -⟩
    cases c with
    | outside c => exact hg
    | _ => exact hc.elim
  · exact ⟨hd, ha⟩

/-! ## The disk -/

theorem writeFile_wp {file : AgentFile} {body : FileBody} {context : String} {Q : Unit → Node η × Activations → Prop}
    {E : Failure → Node η × Activations → Prop} (hp : Prescribed (.writeFile file body) g)
    (hQ : ∀ g' : Node η × Activations, g'.1.disk = Function.update g.1.disk file (some body) →
      g'.2 = g.2.see (.writeFile file body) (.ok ()) → Q () g')
    (hE : ∀ e, ∀ g' : Node η × Activations, g'.2 = g.2 → E e g') :
    wp (watchedSpec net config initial) (writeFile file body context) Q E g := by
  rw [writeFile, wp_bind]
  refine (wp_call _).2 ⟨hp, ?_⟩
  rintro r g' ⟨rfl, rfl, -⟩
  rw [wp_attempt]
  rcases write_cases net config file body g.1 with ⟨hans, hd⟩ | ⟨cause, hans, -⟩
  · constructor
    · intro u _
      exact hQ _ hd (congrArg (Activations.see g.2 (.writeFile file body)) hans)
    · intro e he
      rw [show (watchedHandler net config (.writeFile file body) g).1 = .ok () from hans] at he
      cases he
  · constructor
    · intro u he
      rw [show (watchedHandler net config (.writeFile file body) g).1 = .error cause from hans] at he
      cases he
    · intro e _
      exact hE e _ (congrArg (Activations.see g.2 (.writeFile file body)) hans)

theorem readFile_wp {file : AgentFile} {context : String} {Q : FileBody → Node η × Activations → Prop}
    {E : Failure → Node η × Activations → Prop}
    (hQ : ∀ body, ∀ g' : Node η × Activations, g.1.disk file = some body → g'.1.disk = g.1.disk →
      g'.2 = g.2 → Q body g')
    (hE : ∀ e, ∀ g' : Node η × Activations, g'.2 = g.2 → E e g') :
    wp (watchedSpec net config initial) (readFile file context) Q E g := by
  rw [readFile, wp_bind]
  refine (wp_call _).2 ⟨trivial, ?_⟩
  rintro r g' ⟨rfl, rfl, -⟩
  rw [wp_attempt]
  constructor
  · intro body hbody
    have hans : (agentHandler net config (.readFile file) g.1).1 = .ok body := by
      show (watchedHandler net config (.readFile file) g).1 = .ok body
      cases hans : (watchedHandler net config (.readFile file) g).1 with
      | ok b =>
        rw [hans] at hbody
        cases hbody
        rfl
      | error e =>
        rw [hans] at hbody
        cases hbody
    exact hQ body _ (read_agentHandler hans) rfl rfl
  · exact fun e _ => hE e _ rfl

/-! ## Staging and activation -/

/-- The parts of the package are in their staged files. -/
structure Staged (package : ConfigPackageResponse) (disk : AgentFile → Option FileBody) : Prop where
  manifest : disk (.stagedManifest package.releaseVersion) = some (.json package.manifest)
  renderedConfig : disk (.stagedRenderedConfig package.releaseVersion) = some (.json package.renderedConfig)
  certificates : disk (.stagedCertificates package.releaseVersion) = some (.json package.certificates)

/-- An active file is no staged file. -/
theorem Staged.update {package : ConfigPackageResponse} (h : Staged package disk) (k : CurrentFile) (body : FileBody) :
    Staged package (Function.update disk k.file (some body)) := by
  constructor
  · rw [Function.update_of_ne (by cases k <;> simp [CurrentFile.file])]
    exact h.manifest
  · rw [Function.update_of_ne (by cases k <;> simp [CurrentFile.file])]
    exact h.renderedConfig
  · rw [Function.update_of_ne (by cases k <;> simp [CurrentFile.file])]
    exact h.certificates

/-- A file that is none of the active ones may be written at any time, and this says nothing of the activations. -/
theorem writeFile_other_wp {file : AgentFile} (hf : file.current? = none) {body : FileBody} {context : String}
    {Q : Unit → Node η × Activations → Prop} {E : Failure → Node η × Activations → Prop}
    (hQ : ∀ g' : Node η × Activations, g'.1.disk = Function.update g.1.disk file (some body) → g'.2 = g.2 → Q () g')
    (hE : ∀ e, ∀ g' : Node η × Activations, g'.2 = g.2 → E e g') :
    wp (watchedSpec net config initial) (writeFile file body context) Q E g := by
  apply writeFile_wp
  · intro k hk
    rw [hf] at hk
    cases hk
  · intro g' hd ha
    refine hQ g' hd (ha.trans ?_)
    simp [Activations.see, hf]
  · exact hE

theorem persistReleaseArtifacts_wp (package : ConfigPackageResponse) (ha : g.2 = a) :
    wp (watchedSpec net config initial) (persistReleaseArtifacts config package)
      (fun _ g' => Staged package g'.1.disk ∧ g'.2 = a) (fun _ g' => g'.2 = a) g := by
  rw [persistReleaseArtifacts, wp_bind]
  refine wp_mono ?_ (fun _ _ h => h.2) (elsewhere_wp (createDirAll_elsewhere _) rfl ha)
  rintro - g₁ ⟨-, ha₁⟩
  rw [wp_bind]
  apply writeFile_other_wp rfl _ fun _ _ h => h.trans ha₁
  intro g₂ _ ha₂
  have ha₂ : g₂.2 = a := ha₂.trans ha₁
  rw [wp_bind]
  apply writeFile_other_wp rfl _ fun _ _ h => h.trans ha₂
  intro g₃ hd₃ ha₃
  have ha₃ : g₃.2 = a := ha₃.trans ha₂
  rw [wp_bind]
  apply writeFile_other_wp rfl _ fun _ _ h => h.trans ha₃
  intro g₄ hd₄ ha₄
  have ha₄ : g₄.2 = a := ha₄.trans ha₃
  rw [wp_bind]
  apply writeFile_other_wp rfl _ fun _ _ h => h.trans ha₄
  intro g₅ hd₅ ha₅
  rw [wp_pure]
  refine ⟨⟨?_, ?_, ?_⟩, ha₅.trans ha₄⟩
  · rw [hd₅, Function.update_of_ne (by simp), hd₄, Function.update_of_ne (by simp), hd₃, Function.update_self]
  · rw [hd₅, Function.update_of_ne (by simp), hd₄, Function.update_self]
  · rw [hd₅, Function.update_self]

/-- An active file is written in its turn. -/
theorem writeFile_current_wp {package : ConfigPackageResponse} (k : CurrentFile) {begun : List ConfigPackageResponse}
    {placed : Nat} {context : String} {Q : Unit → Node η × Activations → Prop}
    {E : Failure → Node η × Activations → Prop} (ha : g.2 = ⟨begun, placed⟩) (hlast : package ∈ begun.getLast?)
    (hturn : CurrentFile.all[placed]? = some k)
    (hQ : ∀ g' : Node η × Activations, g'.1.disk = Function.update g.1.disk k.file (some (k.body package)) →
      g'.2 = ⟨begun, placed + 1⟩ → Q () g')
    (hE : ∀ e, ∀ g' : Node η × Activations, g'.2 = ⟨begun, placed⟩ → E e g') :
    wp (watchedSpec net config initial) (writeFile k.file (k.body package) context) Q E g := by
  have hk : k.file.current? = some k := AgentFile.current?_eq_some.2 rfl
  apply writeFile_wp
  · intro k' hk'
    rw [hk] at hk'
    cases hk'
    rw [ha]
    exact ⟨hturn, package, hlast, rfl⟩
  · intro g' hd hsee
    refine hQ g' hd (hsee.trans ?_)
    rw [ha]
    simp [Activations.see, hk]
  · intro e g' h
    exact hE e g' (h.trans ha)

/-- An activation puts the parts of the package in their places, or fails with some of them missing. -/
theorem activateReleaseArtifacts_wp {package : ConfigPackageResponse} {artifacts : ReleaseArtifacts}
    {begun : List ConfigPackageResponse} (ha : g.2 = ⟨begun, 0⟩) (hlast : package ∈ begun.getLast?)
    (hstaged : Staged package g.1.disk) :
    wp (watchedSpec net config initial) (activateReleaseArtifacts config package artifacts)
      (fun _ g' => g'.2 = ⟨begun, CurrentFile.all.length⟩)
      (fun _ g' => g'.2.begun = begun ∧ g'.2.placed < CurrentFile.all.length) g := by
  have hfails : ∀ n, n < CurrentFile.all.length → ∀ (_ : Failure) (g' : Node η × Activations), g'.2 = ⟨begun, n⟩ →
      g'.2.begun = begun ∧ g'.2.placed < CurrentFile.all.length := by
    intro n hn _ g' h
    rw [h]
    exact ⟨rfl, hn⟩
  rw [activateReleaseArtifacts, wp_bind]
  apply writeFile_current_wp .releaseVersion ha hlast rfl _ (hfails 0 (by decide))
  intro g₁ hd₁ ha₁
  have hs₁ : Staged package g₁.1.disk := hd₁ ▸ hstaged.update _ _
  rw [wp_bind]
  apply readFile_wp _ fun e g' h => hfails 1 (by decide) e g' (h.trans ha₁)
  intro manifest g₂ hread hd₂ ha₂
  cases Option.some.inj (hread.symm.trans hs₁.manifest)
  have hs₂ : Staged package g₂.1.disk := hd₂ ▸ hs₁
  rw [wp_bind]
  apply writeFile_current_wp .manifest (ha₂.trans ha₁) hlast rfl _ (hfails 1 (by decide))
  intro g₃ hd₃ ha₃
  have hs₃ : Staged package g₃.1.disk := hd₃ ▸ hs₂.update _ _
  rw [wp_bind]
  apply readFile_wp _ fun e g' h => hfails 2 (by decide) e g' (h.trans ha₃)
  intro renderedConfig g₄ hread hd₄ ha₄
  cases Option.some.inj (hread.symm.trans hs₃.renderedConfig)
  have hs₄ : Staged package g₄.1.disk := hd₄ ▸ hs₃
  rw [wp_bind]
  apply writeFile_current_wp .renderedConfig (ha₄.trans ha₃) hlast rfl _ (hfails 2 (by decide))
  intro g₅ hd₅ ha₅
  have hs₅ : Staged package g₅.1.disk := hd₅ ▸ hs₄.update _ _
  rw [wp_bind]
  apply readFile_wp _ fun e g' h => hfails 3 (by decide) e g' (h.trans ha₅)
  intro certificates g₆ hread _ ha₆
  cases Option.some.inj (hread.symm.trans hs₅.certificates)
  apply writeFile_current_wp .certificates (ha₆.trans ha₅) hlast rfl _ (hfails 3 (by decide))
  exact fun g' _ h => h

/-! ## Runs of the release sync -/

/-- From `a` on, an activation of the package was begun and returned `Ok`. -/
def Activated (a : Activations) (package : ConfigPackageResponse) (a' : Activations) : Prop :=
  a'.begun = a.begun ++ [package] ∧ a'.placed = CurrentFile.all.length

/-- A run that ended with `r` has recorded the package that it activated, and if it ended well on the disk too. -/
def Recorded (a : Activations) (r : Except (LocalAgentState × Failure) (SyncAction × LocalAgentState))
    (g : Node η × Activations) : Prop :=
  ∀ package, Activated a package g.2 → (stateOf r).currentReleaseVersion = some package.releaseVersion ∧
    (r.isOk → g.1.disk .state = some (.state (stateOf r)))

theorem recorded_of_same {r : Except (LocalAgentState × Failure) (SyncAction × LocalAgentState)} (h : g.2 = a) :
    Recorded a r g := by
  rintro package ⟨hbegun, -⟩
  rw [h] at hbegun
  simpa using congrArg List.length hbegun

/-- The rest of a run, once the package is active. -/
theorem recordActivated_wp (registration : RegistrationMetadata) (session : Session) {state : LocalAgentState}
    {package : ConfigPackageResponse} (message : Option String)
    (hstate : state.currentReleaseVersion = some package.releaseVersion)
    (ha : g.2 = ⟨a.begun ++ [package], CurrentFile.all.length⟩) :
    wp (watchedSpec net config initial) (do
        keeping state (acknowledgeRelease config registration session package message)
        let state := { state with lastAcknowledgedReleaseId := some package.releaseId }
        keeping state (persistState config state)
        return (SyncAction.applied package.releaseVersion, state))
      (fun r g' => Recorded a (.ok r) g') (fun e g' => Recorded a (.error e) g') g := by
  have hpackage : ∀ {g' : Node η × Activations} {other : ConfigPackageResponse},
      g'.2 = ⟨a.begun ++ [package], CurrentFile.all.length⟩ → Activated a other g'.2 → other = package := by
    rintro g' other h ⟨hbegun, -⟩
    rw [h] at hbegun
    simpa using hbegun.symm
  rw [wp_bind, keeping, wp_mapError, acknowledgeRelease, wp_discard]
  refine wp_mono ?_ ?_ (elsewhere_wp (reportReleaseStatus_elsewhere _ _ _ _ _ _) rfl ha)
  · rintro - g₁ ⟨-, ha₁⟩
    rw [wp_bind, keeping, wp_mapError, persistState]
    apply writeFile_other_wp rfl
    · intro g₂ hd₂ ha₂
      rw [wp_pure]
      intro other hother
      cases hpackage (ha₂.trans ha₁) hother
      refine ⟨hstate, fun _ => ?_⟩
      rw [hd₂, Function.update_self]
      rfl
    · intro e g₂ ha₂ other hother
      cases hpackage (ha₂.trans ha₁) hother
      exact ⟨hstate, fun e => by cases e⟩
  · rintro e g₁ ⟨-, ha₁⟩ other hother
    cases hpackage ha₁ hother
    exact ⟨hstate, fun e => by cases e⟩

theorem syncNewRelease_wp (registration : RegistrationMetadata) (state : LocalAgentState) (session : Session)
    (latest : LatestReleaseResponse) (ha : g.2 = a) :
    wp (watchedSpec net config initial) (syncNewRelease config registration state session latest)
      (fun r g' => Recorded a (.ok r) g') (fun e g' => Recorded a (.error e) g') g := by
  rw [syncNewRelease, wp_bind, keeping, wp_mapError]
  refine wp_mono ?_ (fun _ _ h => recorded_of_same h.2)
    (elsewhere_wp (reportReleaseStatus_elsewhere _ _ _ _ _ _) rfl ha)
  rintro - g₁ ⟨-, ha₁⟩
  rw [wp_bind, keeping, wp_mapError]
  refine wp_mono ?_ (fun _ _ h => recorded_of_same h.2) (elsewhere_wp (getConfigPackage_elsewhere _ _) rfl ha₁)
  rintro package g₂ ⟨-, ha₂⟩
  rw [wp_bind, keeping, wp_mapError]
  refine wp_mono ?_ (fun _ _ h => recorded_of_same h) (persistReleaseArtifacts_wp package ha₂)
  rintro artifacts g₃ ⟨hstaged, ha₃⟩
  rw [wp_bind, keeping, wp_mapError]
  refine wp_mono ?_ (fun _ _ h => recorded_of_same h.2)
    (elsewhere_wp (reportReleaseStatus_elsewhere _ _ _ _ _ _) rfl ha₃)
  rintro - g₄ ⟨hd₄, ha₄⟩
  rw [wp_bind, keeping, wp_mapError]
  refine (wp_call _).2 ⟨trivial, ?_⟩
  rintro r g₅ ⟨hr, rfl, -⟩
  cases r with
  | error e =>
    have ha₅ : (watchedHandler net config (.applyReleasePackage registration package artifacts state) g₄).2.2 = a := by
      rw [← ha₄]
      exact congrArg (Activations.see g₄.2 (.applyReleasePackage registration package artifacts state)) hr.symm
    dsimp only
    rw [wp_bind, wp_caught]
    refine wp_mono ?_ ?_ (elsewhere_wp (reportReleaseStatus_elsewhere _ _ _ _ _ _) rfl ha₅)
    · exact fun _ _ h => (wp_throw _).2 (recorded_of_same h.2)
    · exact fun _ _ h => (wp_throw _).2 (recorded_of_same h.2)
  | ok applyMessage =>
    have ha₅ : (watchedHandler net config (.applyReleasePackage registration package artifacts state) g₄).2.2 =
        ⟨a.begun ++ [package], 0⟩ := by
      rw [← ha₄]
      exact congrArg (Activations.see g₄.2 (.applyReleasePackage registration package artifacts state)) hr.symm
    dsimp only
    rw [wp_bind, keeping, wp_mapError]
    refine wp_mono ?_ ?_ (activateReleaseArtifacts_wp ha₅ (by simp) (hd₄ ▸ hstaged))
    · intro _ g₆ ha₆
      exact recordActivated_wp registration session (some applyMessage) rfl ha₆
    · rintro e g₆ ⟨-, hplaced⟩ other ⟨-, hall⟩
      exact absurd hall hplaced.ne

theorem confirmRelease_wp (registration : RegistrationMetadata) (state : LocalAgentState) (session : Session)
    (latest : LatestReleaseResponse) (ha : g.2 = a) :
    wp (watchedSpec net config initial) (confirmRelease config registration state session latest)
      (fun r g' => Recorded a (.ok r) g') (fun e g' => Recorded a (.error e) g') g := by
  rw [confirmRelease, wp_bind, wp_okOr]
  constructor
  · intro currentVersion _
    rw [wp_bind, keeping, wp_mapError]
    refine wp_mono ?_ (fun _ _ h => recorded_of_same h.2)
      (elsewhere_wp (reportReleaseStatus_elsewhere _ _ _ _ _ _) rfl ha)
    rintro - g₁ ⟨-, ha₁⟩
    rw [wp_bind, keeping, wp_mapError, persistState]
    apply writeFile_other_wp rfl
    · intro g₂ _ ha₂
      exact (wp_pure _).2 (recorded_of_same (ha₂.trans ha₁))
    · exact fun e g₂ ha₂ => recorded_of_same (ha₂.trans ha₁)
  · exact fun _ => recorded_of_same ha

/-- Every run of the release sync writes the active files as it is prescribed, and records what it activates. -/
theorem syncLatestRelease_wp (registration : RegistrationMetadata) (state : LocalAgentState) (session : Session)
    (ha : g.2 = a) :
    wp (watchedSpec net config initial) (syncLatestRelease config registration state session)
      (fun r g' => Recorded a (.ok r) g') (fun e g' => Recorded a (.error e) g') g := by
  rw [syncLatestRelease, wp_bind, wp_caught]
  refine wp_mono ?_ ?_ (elsewhere_wp (getLatestRelease_elsewhere _ _) rfl ha)
  · rintro latest g₁ ⟨-, ha₁⟩
    dsimp only
    split
    · exact syncNewRelease_wp registration state session latest ha₁
    · split
      · exact confirmRelease_wp registration state session latest ha₁
      · exact (wp_pure _).2 (recorded_of_same ha₁)
  · rintro e g₁ ⟨-, ha₁⟩
    dsimp only
    split
    · exact (wp_pure _).2 (recorded_of_same ha₁)
    · exact (wp_throw _).2 (recorded_of_same ha₁)

theorem sync_wp (run : SyncRun η) (g : Node η × Activations) :
    wp (watchedSpec net config initial) (run.sync config) (fun r g' => Recorded g.2 (.ok r) g')
      (fun e g' => Recorded g.2 (.error e) g') (run.enter g) :=
  syncLatestRelease_wp run.registration run.state run.session rfl

/-- A run keeps the active files in order, also if it is stopped. -/
theorem leave_mixed (run : SyncRun η) (hg : FilesMixed initial g) : FilesMixed initial (run.leave net config g) := by
  have henter : FilesMixed initial (run.enter g) := hg
  rw [SyncRun.leave]
  cases run.stop with
  | none => exact (wp_run prescribed_keeps henter (sync_wp run g)).2
  | some n => exact (Prog.wp_runFor prescribed_keeps n henter (wp_iff_run.1 (sync_wp run g))).1

theorem syncRuns_mixed (node : Node η) (runs : List (SyncRun η)) :
    FilesMixed (fun k => node.disk k.file) (syncRuns net config node runs) := by
  have hruns : ∀ (runs : List (SyncRun η)) (g : Node η × Activations), FilesMixed (fun k => node.disk k.file) g →
      FilesMixed (fun k => node.disk k.file) (runs.foldl (fun g run => run.leave net config g) g) := by
    intro runs
    induction runs with
    | nil => exact fun g hg => hg
    | cons run runs ih => exact fun g hg => ih _ (leave_mixed run hg)
  exact hruns runs _ Replace.Mixed.start

end Calls

/-- After any runs of the release sync, with any failures of the writes and any stops: the active files are from
activations that are the older the later the file is written; once the last activation has returned `Ok`, all of them
are from its package; and the next run, if it activates a package and is not stopped, records it. -/
theorem current_files_in_order {η : Type} (net : Handler OutsideSig η) (config : AgentConfig) (node : Node η)
    (runs : List (SyncRun η)) :
    let after := syncRuns net config node runs
    (∃ age : CurrentFile → Nat,
      (∀ k, Replace.From (fun package k => CurrentFile.body package k) .torn (fun k => node.disk k.file) after.2.begun k
        (after.1.disk k.file) (age k)) ∧
      age .manifest ≤ age .releaseVersion ∧ age .renderedConfig ≤ age .manifest ∧
        age .certificates ≤ age .renderedConfig) ∧
    (after.2.placed = CurrentFile.all.length → ∃ package ∈ after.2.begun.getLast?,
      ∀ k, after.1.disk k.file = some (CurrentFile.body package k)) ∧
    ∀ run : SyncRun η, Recorded after.2
      (Fallible.run (watchedHandler net config) (run.sync config) (run.enter after)).1
      (Fallible.run (watchedHandler net config) (run.sync config) (run.enter after)).2 := by
  intro after
  have hmixed : FilesMixed (fun k => node.disk k.file) after := syncRuns_mixed node runs
  refine ⟨?_, ?_, ?_⟩
  · obtain ⟨age, hfrom, hsorted, -⟩ := hmixed.ages
    refine ⟨age, fun k => hfrom k k.mem_all, ?_⟩
    simp only [CurrentFile.all, List.pairwise_cons, List.mem_cons] at hsorted
    exact ⟨hsorted.1 _ (.inl rfl), hsorted.2.1 _ (.inl rfl), hsorted.2.2.1 _ (.inl rfl)⟩
  · intro hplaced
    have hwhole : Replace.Mixed (fun package k => CurrentFile.body package k) .torn (fun k => node.disk k.file)
        CurrentFile.all after.2.begun CurrentFile.all.length fun k => after.1.disk k.file := hplaced ▸ hmixed
    obtain ⟨package, hlast, -⟩ := hwhole.written .releaseVersion (by simp [CurrentFile.all])
    exact ⟨package, hlast, fun k => hwhole.whole hlast k k.mem_all⟩
  · intro run
    have henter : FilesMixed (fun k => node.disk k.file) (run.enter after) := hmixed
    have hrun := (wp_run (h := watchedHandler net config) prescribed_keeps henter (sync_wp run after)).1
    generalize Fallible.run (watchedHandler net config) (run.sync config) (run.enter after) = out at hrun ⊢
    obtain ⟨result, g'⟩ := out
    cases result with
    | ok r => exact hrun
    | error e => exact hrun

/-! ## An upgrade that is interrupted -/

def firstRelease : ConfigPackageResponse where
  releaseId := 1
  releaseVersion := "v1"
  manifest := .string "m1"
  renderedConfig := .string "c1"
  certificates := .string "k1"
  signature := "sig"

def secondRelease : ConfigPackageResponse where
  releaseId := 2
  releaseVersion := "v2"
  manifest := .string "m2"
  renderedConfig := .string "c2"
  certificates := .string "k2"
  signature := "sig"

/-- The release that the hub offers. -/
def latestOf (package : ConfigPackageResponse) : LatestReleaseResponse where
  releaseId := package.releaseId
  releaseVersion := package.releaseVersion
  configHash := "h"
  downloadUrl := "/v"

/-- Surroundings in which everything goes well; the hub offers one package. -/
def serving : Handler OutsideSig ConfigPackageResponse := fun c package => (match c with
  | .latestRelease _ _ => .answered 200 "" (.ok (latestOf package))
  | .configPackage _ _ => .answered 200 "" (.ok package)
  | c => (calm c ()).1, package)

def upgradeRegistration : RegistrationMetadata where
  nodeId := 0
  nodeCode := "edge-1"
  hostname := "h"
  privateIp := "10.0.0.1"
  refreshToken := "r"
  expiresAt := ""
  registrationMode := "manual"

/-- The first release is activated; the second one as far as its rendered configuration. -/
def upgradeRuns : List (SyncRun ConfigPackageResponse) :=
  [{ registration := upgradeRegistration, state := {}, session := { accessToken := "a", expiresAt := 0 }
     env := firstRelease, stop := none },
   { registration := upgradeRegistration, state := ({} : LocalAgentState).activated (latestOf firstRelease) firstRelease
     session := { accessToken := "a", expiresAt := 0 }, env := secondRelease, stop := some 15 }]

/-- The node after the two runs. -/
def upgraded : Node ConfigPackageResponse × Activations :=
  syncRuns serving (.fromEnv applyVars) { disk := fun _ => none, env := firstRelease } upgradeRuns

/-- A text, or a JSON document that is one. -/
def FileBody.word : FileBody → Option String
  | .text t => some t
  | .json (.string t) => some t
  | _ => none

/-- The new configuration is there with the old certificates. -/
theorem files_of_two_releases : ((upgraded.1.disk .currentReleaseVersion).bind FileBody.word = some "v2" ∧
      (upgraded.1.disk .currentManifest).bind FileBody.word = some "m2" ∧
      (upgraded.1.disk .currentRenderedConfig).bind FileBody.word = some "c2" ∧
      (upgraded.1.disk .currentCertificates).bind FileBody.word = some "k1") ∧
    ¬ ∃ package ∈ upgraded.2.begun, ∀ k, upgraded.1.disk k.file = some (CurrentFile.body package k) := by
  have hdisk : (upgraded.1.disk .currentReleaseVersion).bind FileBody.word = some "v2" ∧
      (upgraded.1.disk .currentManifest).bind FileBody.word = some "m2" ∧
      (upgraded.1.disk .currentRenderedConfig).bind FileBody.word = some "c2" ∧
      (upgraded.1.disk .currentCertificates).bind FileBody.word = some "k1" := by decide +kernel
  have hpackages : ∀ package ∈ upgraded.2.begun, (CurrentFile.body package .certificates).word = some "k1" →
      package.releaseVersion ≠ "v2" := by decide +kernel
  refine ⟨hdisk, ?_⟩
  rintro ⟨package, hp, hfiles⟩
  apply hpackages package hp
  · have hcertificates := hdisk.2.2.2
    rw [show upgraded.1.disk .currentCertificates = _ from hfiles .certificates] at hcertificates
    exact hcertificates
  · have hversion := hdisk.1
    rw [show upgraded.1.disk .currentReleaseVersion = _ from hfiles .releaseVersion] at hversion
    exact Option.some.inj hversion

end PingoraMesh.NodeAgent
