/-
  File:      Nsql/Proofs/Server/Settings.lean
  Subject:   The configuration in force.

  Settings reach the server with the first message, in an announcement, or in the reply to its own
  question, and may be any JSON value at all. Those that have a section for this server, can be
  read and can be used are accepted (`Config.accepted?`); all others leave everything as it was.
  Of the accepted ones the last one counts, with one reservation: a configuration that names the
  path of the present one in another spelling, and the same timeout, is taken for the present one,
  and the present one stays as it is written (`Config.InForce`).

  * `Server.Brings` -- what a handler makes of a payload, the same for all ways in which one comes;
  * `Server.Configured` -- usable, followed by the engine, and in force; kept by every errand;
  * **`configuration_stays_in_force`** -- so it is after any errands;
  * `respelled_path_is_not_adopted` -- why the spelling matters.
-/
import Nsql.Proofs.Server.View
import Nsql.Proofs.Workspace.Engines

namespace Nsql

namespace Config

/-! ## 1. Configurations that are asked for -/

/-- The configuration that a payload asks for, if the payload has a section for this server that
    can be read, and the configuration can be used. -/
def accepted? (env : Option String) (payload : Json) : Option Config :=
  match ofSettings env payload with
  | .ok (some c) =>
    match c.verdict with
    | .ok () => some c
    | .error _ => none
  | _ => none

/-- What is accepted can be used. -/
theorem verdict_of_accepted? {env : Option String} {payload : Json} {c : Config}
    (h : accepted? env payload = some c) : c.verdict = .ok () := by
  unfold accepted? at h
  split at h
  · split at h
    · rename_i hverdict
      cases h
      exact hverdict
    · cases h
  · cases h

/-- A server that has been told nothing has a configuration that can be used: the environment
    gives no empty path. -/
theorem verdict_ofEnvironment (env : Option String) : (ofEnvironment env).verdict = .ok () := by
  have hpath : environmentPath env ≠ some "" := by
    intro h
    obtain ⟨-, hne⟩ := Option.filter_eq_some_iff.mp h
    simp at hne
  have htimeout : (ofEnvironment env).timeout ≠ 0 := by
    show defaultTimeout ≠ 0
    decide
  rw [verdict, if_neg htimeout, if_neg]
  exact hpath

theorem same_iff {a b : Config} :
    a.same b = true ↔
      a.parserPath.map pathParts = b.parserPath.map pathParts ∧ a.timeout = b.timeout := by
  simp [same]

theorem same_refl (c : Config) : c.same c = true := same_iff.mpr ⟨rfl, rfl⟩

/-! ## 2. The configuration in force -/

/-- **A configuration is in force** among those that were asked for: it is one of them, and those
    that were asked for later are the same. -/
def InForce (asked : List Config) (c : Config) : Prop :=
  ∃ before after, asked = before ++ c :: after ∧ ∀ c' ∈ after, c.same c' = true

/-- The last one that was asked for is the same as the one in force. -/
theorem InForce.same_getLast {asked : List Config} {c d : Config} (h : InForce (d :: asked) c) :
    c.same (asked.getLast?.getD d) = true := by
  obtain ⟨before, after, hasked, hsame⟩ := h
  have hlast : asked.getLast?.getD d = after.getLast?.getD c := by
    have hcons : (d :: asked).getLast? = some (asked.getLast?.getD d) := List.getLast?_cons
    have hcons' : (c :: after).getLast? = some (after.getLast?.getD c) := List.getLast?_cons
    rw [hasked, List.getLast?_append, hcons', Option.some_or] at hcons
    exact (Option.some.inj hcons).symm
  rw [hlast]
  cases hafter : after.getLast? with
  | none => exact same_refl c
  | some c' => exact hsame c' (List.mem_of_getLast? hafter)

/-- The same configuration in another spelling is asked for. -/
theorem InForce.concat {asked : List Config} {c new : Config} (h : InForce asked c)
    (hnew : c.same new = true) : InForce (asked ++ [new]) c := by
  obtain ⟨before, after, rfl, hsame⟩ := h
  refine ⟨before, after ++ [new], by simp, fun c' hc' => ?_⟩
  rcases List.mem_append.mp hc' with hc' | hc'
  · exact hsame c' hc'
  · rw [List.mem_singleton.mp hc']
    exact hnew

theorem inForce_last (asked : List Config) (c : Config) : InForce (asked ++ [c]) c :=
  ⟨asked, [], rfl, fun _ h => absurd h List.not_mem_nil⟩

end Config

/-! ## 3. What a payload does -/

/-- Requests that set no configuration leave it, and the engine, alone. -/
theorem Workspace.setup_handle (host : Host) (w : Workspace) {r : Request}
    (hr : ∀ config, r ≠ .configure config) :
    (w.handle host r).workspace.config = w.config ∧
    (w.handle host r).workspace.engine = w.engine ∧
    (w.handle host r).workspace.followsConfig = w.followsConfig := by
  cases r with
  | openDocument d =>
    rw [handle, workspace_recheck]
    exact ⟨rfl, rfl, rfl⟩
  | changeDocument uri version edits =>
    rw [handle]
    split
    · rw [workspace_recheck]
      exact ⟨rfl, rfl, rfl⟩
    · exact ⟨rfl, rfl, rfl⟩
  | closeDocument uri => exact ⟨rfl, rfl, rfl⟩
  | validate uri =>
    rw [handle, workspace_recheck]
    exact ⟨rfl, rfl, rfl⟩
  | revalidateAll => exact ⟨rfl, rfl, rfl⟩
  | configure config => exact absurd rfl (hr config)

namespace Server

/-- The server accepts what can be accepted. -/
theorem acceptSettings_eq (host : Host) (payload : Json) :
    (∃ e, acceptSettings host payload = .error e) ∧
        Config.accepted? host.parserVariable payload = none ∨
      acceptSettings host payload = .ok (Config.accepted? host.parserVariable payload) := by
  unfold acceptSettings Config.accepted?
  cases Config.ofSettings host.parserVariable payload with
  | error e => exact .inl ⟨⟨e, rfl⟩, rfl⟩
  | ok config? =>
    cases config? with
    | none => exact .inr rfl
    | some config =>
      dsimp only
      cases config.verdict with
      | ok => exact .inr rfl
      | error e => exact .inl ⟨⟨e, rfl⟩, rfl⟩

/-- **A payload that is not accepted** leaves the server as it is, and nothing is published. -/
theorem adoptSettings_of_refused {host : Host} {payload : Json} (s : Server)
    (h : Config.accepted? host.parserVariable payload = none) :
    (s.adoptSettings host payload).1 = s ∧
      publications (s.adoptSettings host payload).2 = [] := by
  unfold adoptSettings
  rcases acceptSettings_eq host payload with ⟨⟨e, he⟩, -⟩ | hok
  · rw [he]
    exact ⟨rfl, rfl⟩
  · rw [hok, h]
    exact ⟨rfl, rfl⟩

/-- **A payload that is accepted** sets the configuration. -/
theorem workspace_adoptSettings_of_accepted {host : Host} {payload : Json} {config : Config}
    (s : Server) (h : Config.accepted? host.parserVariable payload = some config) :
    (s.adoptSettings host payload).1.workspace = (s.workspace.configure config).1 := by
  have hok : acceptSettings host payload = .ok (some config) := by
    rcases acceptSettings_eq host payload with ⟨-, hnone⟩ | hok
    · rw [h] at hnone
      cases hnone
    · rw [hok, h]
  unfold adoptSettings
  rw [hok]
  dsimp only
  split
  · rename_i w hconfigure
    -- the same configuration again: it is not even put in
    rw [hconfigure]
    unfold Workspace.configure at hconfigure
    split at hconfigure
    · cases hconfigure
      rfl
    · cases hconfigure
  · rename_i w hconfigure
    rw [hconfigure]
    rfl

/-- Settings have an effect on the workspace only. -/
theorem adoptSettings_fst (host : Host) (s : Server) (payload : Json) :
    (s.adoptSettings host payload).1 =
      { s with workspace := (s.adoptSettings host payload).1.workspace } := by
  unfold adoptSettings
  split
  · rfl
  · rfl
  · split <;> rfl

/-! ## 4. The ways in which settings come -/

/-- **What a handler makes of a payload**: it sets the configuration that the payload asks for, or,
    if there is none to accept, leaves the workspace as it is and publishes nothing. -/
structure Brings (host : Host) (s : Server) (payload? : Option Json)
    (r : Server × List Outgoing) : Prop where
  accepted : ∀ config, payload?.bind (Config.accepted? host.parserVariable) = some config →
    r.1.workspace = (s.workspace.configure config).1
  refused : payload?.bind (Config.accepted? host.parserVariable) = none →
    r.1.workspace = s.workspace ∧ publications r.2 = []

section Brings

variable {host : Host} {s : Server} {payload? : Option Json} {r : Server × List Outgoing}

/-- Whoever has no payload does nothing. -/
theorem brings_none (hw : r.1.workspace = s.workspace) (hp : publications r.2 = []) :
    s.Brings host none r :=
  ⟨fun _ h => (by cases h), fun _ => ⟨hw, hp⟩⟩

/-- Only the workspace and what is published matter. -/
theorem Brings.congr {s' : Server} {r' : Server × List Outgoing} (h : s.Brings host payload? r)
    (hs : s'.workspace = s.workspace) (hw : r'.1.workspace = r.1.workspace)
    (hp : publications r'.2 = publications r.2) : s'.Brings host payload? r' := by
  refine ⟨fun config hconfig => ?_, fun hnone => ?_⟩
  · rw [hw, hs, h.accepted config hconfig]
  · rw [hw, hs, hp]
    exact h.refused hnone

theorem brings_adoptSettings (host : Host) (s : Server) (payload : Json) :
    s.Brings host (some payload) (s.adoptSettings host payload) := by
  refine ⟨fun config hconfig => workspace_adoptSettings_of_accepted s hconfig, fun hnone => ?_⟩
  obtain ⟨hs, hp⟩ := adoptSettings_of_refused s hnone
  exact ⟨congrArg Server.workspace hs, hp⟩

theorem brings_pullSettings (host : Host) (s : Server) (reply : Option ClientReply) :
    s.Brings host (pulledSettings? reply) (s.pullSettings host reply) := by
  unfold pullSettings
  cases pulledSettings? reply with
  | none => exact brings_none rfl rfl
  | some payload => exact (brings_adoptSettings host s payload).congr rfl rfl rfl

end Brings

/-- The payload that an errand brings from a client with these abilities. -/
def Errand.payload? (client : ClientAbilities) : Errand → Option Json
  | .greet g => g.options
  | .ready replies =>
    if client.configuration then
      pulledSettings? (if client.dynamicConfiguration then replies.tail else replies).head?
    else none
  | .changeSettings replies settings =>
    if (settings.get? settingsSection).isSome then some settings
    else if client.configuration then pulledSettings? replies.head?
    else none
  | _ => none

/-- Whether an errand is one of those that may bring settings. -/
def Errand.mayBring : Errand → Bool
  | .greet _ => true
  | .ready _ => true
  | .changeSettings _ _ => true
  | _ => false

/-- The abilities of the client after an errand. -/
def Errand.clientAfter (client : ClientAbilities) : Errand → ClientAbilities
  | .greet g => g.client
  | _ => client

theorem brings_greet (host : Host) (s : Server) (g : Greeting) :
    s.Brings host g.options ((s.greet host g).1, (s.greet host g).2.2) := by
  unfold greet
  cases g.options with
  | none => exact brings_none rfl rfl
  | some options =>
    exact (brings_adoptSettings host { s with client := g.client } options).congr rfl rfl rfl

theorem brings_ready (host : Host) (s : Server) (replies : List ClientReply) :
    s.Brings host (Errand.payload? s.client (.ready replies)) (s.ready host replies) := by
  have hpull : s.Brings host (Errand.payload? s.client (.ready replies))
      (if s.client.configuration then
        s.pullSettings host (if s.client.dynamicConfiguration then replies.tail else replies).head?
      else (s, [])) := by
    rw [Errand.payload?]
    split
    · exact brings_pullSettings host s _
    · exact brings_none rfl rfl
  unfold ready
  cases hdynamic : s.client.dynamicConfiguration with
  | true =>
    rw [hdynamic, if_pos rfl] at hpull
    refine hpull.congr rfl rfl ?_
    rw [publications_concat_of_other rfl, publications_append]
    rfl
  | false =>
    rw [hdynamic, if_neg Bool.false_ne_true] at hpull
    refine hpull.congr rfl rfl ?_
    rw [publications_concat_of_other rfl, publications_append]
    rfl

theorem brings_changeSettings (host : Host) (s : Server) (replies : List ClientReply)
    (settings : Json) :
    s.Brings host (Errand.payload? s.client (.changeSettings replies settings))
      (s.changeSettings host replies settings) := by
  rw [changeSettings, Errand.payload?]
  split
  · exact brings_adoptSettings host s settings
  · split
    · exact brings_pullSettings host s replies.head?
    · exact brings_none rfl rfl

/-- **Every way in which settings come** does with them the same. -/
theorem brings_attend (host : Host) (s : Server) {e : Errand} (he : e.mayBring = true) :
    s.Brings host (e.payload? s.client) (s.attend host e) := by
  cases e with
  | greet g => exact brings_greet host s g
  | ready replies => exact brings_ready host s replies
  | changeSettings replies settings => exact brings_changeSettings host s replies settings
  | openDocument | changeDocument | closeDocument | execute | hover | complete => cases he

theorem payload?_of_not_mayBring {e : Errand} (he : e.mayBring = false) (client : ClientAbilities) :
    e.payload? client = none := by
  cases e with
  | greet | ready | changeSettings => cases he
  | openDocument | changeDocument | closeDocument | execute | hover | complete => rfl

/-- A refused change shows a message, and the state is that of the request. -/
theorem documentChanged_fst (host : Host) (s : Server) (b : Batch) :
    (s.documentChanged host b).1 =
      (s.request host (.changeDocument b.uri b.version b.edits)).1 := by
  unfold documentChanged
  split
  · rename_i heq
    rw [heq]
  · rename_i heq
    rw [heq]

/-- All other errands leave the configuration and the engine alone. -/
theorem setup_attend (host : Host) (s : Server) {e : Errand} (he : e.mayBring = false) :
    (s.attend host e).1.workspace.config = s.workspace.config ∧
    (s.attend host e).1.workspace.engine = s.workspace.engine ∧
    (s.attend host e).1.workspace.followsConfig = s.workspace.followsConfig := by
  cases e with
  | greet | ready | changeSettings => cases he
  | openDocument d => exact Workspace.setup_handle host s.workspace (fun _ h => by cases h)
  | changeDocument b =>
    rw [attend, documentChanged_fst]
    exact Workspace.setup_handle host s.workspace (fun _ h => by cases h)
  | closeDocument uri => exact ⟨rfl, rfl, rfl⟩
  | execute command =>
    rw [attend, execute]
    split
    · exact ⟨rfl, rfl, rfl⟩
    · split <;> exact ⟨rfl, rfl, rfl⟩
  | hover | complete => exact ⟨rfl, rfl, rfl⟩

/-- **An errand has an effect on the workspace**, and the first one on what the client can do. -/
theorem attend_fst (host : Host) (s : Server) (e : Errand) :
    (s.attend host e).1 =
      ⟨s.phase, e.clientAfter s.client, (s.attend host e).1.workspace⟩ := by
  have hpull : ∀ reply, (s.pullSettings host reply).1 =
      { s with workspace := (s.pullSettings host reply).1.workspace } := by
    intro reply
    unfold pullSettings
    split
    · rfl
    · exact adoptSettings_fst host s _
  cases e with
  | greet g =>
    rw [attend, greet]
    cases g.options with
    | none => rfl
    | some options => exact adoptSettings_fst host { s with client := g.client } options
  | ready replies =>
    rw [attend, ready]
    split
    dsimp only
    split
    · exact hpull _
    · rfl
  | changeSettings replies settings =>
    rw [attend, changeSettings]
    split
    · exact adoptSettings_fst host s settings
    · split
      · exact hpull _
      · rfl
  | openDocument | closeDocument | hover | complete => rfl
  | changeDocument b =>
    rw [attend, documentChanged_fst]
    rfl
  | execute command =>
    rw [attend, execute]
    split
    · rfl
    · split <;> rfl

/-! ## 5. The configuration after any errands -/

/-- The payloads that some errands bring, in their order. -/
def payloads (client : ClientAbilities) : List Errand → List Json
  | [] => []
  | e :: errands => (e.payload? client).toList ++ payloads (e.clientAfter client) errands

/-- **A server is configured**, after these configurations were asked for: its configuration can be
    used, the engine is the one of the configuration, and the configuration is in force. -/
structure Configured (asked : List Config) (s : Server) : Prop where
  usable : s.workspace.config.verdict = .ok ()
  follows : s.workspace.Follows
  inForce : Config.InForce asked s.workspace.config

section Configured

variable {asked : List Config} {s : Server}

/-- The first configuration is that of the environment. -/
theorem configured_start (host : Host) :
    Configured [.ofEnvironment host.parserVariable] (start host) where
  usable := Config.verdict_ofEnvironment host.parserVariable
  follows := ⟨rfl, rfl⟩
  inForce := Config.inForce_last [] _

/-- One more configuration that can be used. -/
theorem Configured.configure (h : Configured asked s) {config : Config}
    (hconfig : config.verdict = .ok ()) {s' : Server}
    (hs' : s'.workspace = (s.workspace.configure config).1) :
    Configured (asked ++ [config]) s' := by
  have hfollows : s'.workspace.Follows := hs' ▸ h.follows.configure config
  cases hsame : s.workspace.config.same config with
  | true =>
    -- the configuration stays as it was written first, and this one joins those behind it
    have hkept : s'.workspace = s.workspace := by
      rw [hs', Workspace.configure, if_pos hsame]
    exact ⟨hkept ▸ h.usable, hfollows, hkept ▸ h.inForce.concat hsame⟩
  | false =>
    have hnew : s'.workspace.config = config := by
      rw [hs', Workspace.configure, hsame, if_neg Bool.false_ne_true]
    exact ⟨hnew ▸ hconfig, hfollows, hnew ▸ Config.inForce_last asked s'.workspace.config⟩

/-- Whoever leaves the configuration and the engine alone leaves the server configured. -/
theorem Configured.congr (h : Configured asked s) {s' : Server}
    (hconfig : s'.workspace.config = s.workspace.config)
    (hengine : s'.workspace.engine = s.workspace.engine)
    (hfollows : s'.workspace.followsConfig = s.workspace.followsConfig) :
    Configured asked s' := by
  refine ⟨hconfig ▸ h.usable, ⟨hfollows ▸ h.follows.1, ?_⟩, hconfig ▸ h.inForce⟩
  rw [hengine, hconfig]
  exact h.follows.2

/-- **One errand** adds to what was asked for what it brings, if that is accepted. -/
theorem Configured.attend (h : Configured asked s) (host : Host) (e : Errand) :
    Configured
      (asked ++ (e.payload? s.client).toList.filterMap (Config.accepted? host.parserVariable))
      (s.attend host e).1 := by
  cases he : e.mayBring with
  | false =>
    obtain ⟨hconfig, hengine, hfollows⟩ := setup_attend host s he
    rw [payload?_of_not_mayBring he, Option.toList_none, List.filterMap_nil, List.append_nil]
    exact h.congr hconfig hengine hfollows
  | true =>
    have hbrings := brings_attend host s he
    have hasked : (e.payload? s.client).toList.filterMap (Config.accepted? host.parserVariable) =
        ((e.payload? s.client).bind (Config.accepted? host.parserVariable)).toList := by
      cases e.payload? s.client with
      | none => rfl
      | some payload =>
        show List.filterMap _ [payload] = (Config.accepted? host.parserVariable payload).toList
        rw [List.filterMap_cons]
        cases Config.accepted? host.parserVariable payload with
        | none => rfl
        | some config => rfl
    rw [hasked]
    cases haccepted : (e.payload? s.client).bind (Config.accepted? host.parserVariable) with
    | none =>
      obtain ⟨hkept, -⟩ := hbrings.refused haccepted
      rw [Option.toList_none, List.append_nil]
      exact h.congr (by rw [hkept]) (by rw [hkept]) (by rw [hkept])
    | some config =>
      obtain ⟨payload, -, hconfig⟩ := Option.bind_eq_some_iff.mp haccepted
      exact h.configure (Config.verdict_of_accepted? hconfig) (hbrings.accepted config haccepted)

/-- **Any errands**, by induction on them. -/
theorem Configured.foldl {t : Transcript} (h : Configured asked t.server) (host : Host)
    (errands : List Errand) :
    Configured
      (asked ++ (payloads t.server.client errands).filterMap
        (Config.accepted? host.parserVariable))
      (errands.foldl (Transcript.attend host) t).server := by
  induction errands generalizing asked t with
  | nil =>
    rw [payloads, List.filterMap_nil, List.append_nil]
    exact h
  | cons e errands ih =>
    have hstep : Configured
        (asked ++ (e.payload? t.server.client).toList.filterMap
          (Config.accepted? host.parserVariable))
        (t.attend host e).server := h.attend host e
    have hclient : (t.attend host e).server.client = e.clientAfter t.server.client :=
      congrArg Server.client (attend_fst host t.server e)
    have hrun := ih hstep
    rw [hclient, List.append_assoc, ← List.filterMap_append] at hrun
    exact hrun

end Configured

/-- Settings that name a parser. -/
def naming (path : String) : Json :=
  .obj [(settingsSection, .obj [("parserPath", .str path)])]

/-- **The configuration is always usable, the engine's own, and the last accepted one**, up to the
    spelling of its path: after any errands it is one that was accepted, or that of the
    environment, and whatever was accepted later is the same. An errand for settings that brings
    none to accept leaves the workspace as it is, and nothing is published. -/
theorem configuration_stays_in_force (host : Host) :
    (∀ errands : List Errand,
      let w := (errands.foldl (Transcript.attend host) (Transcript.start host)).server.workspace
      let fallback := Config.ofEnvironment host.parserVariable
      let accepted := (payloads {} errands).filterMap (Config.accepted? host.parserVariable)
      w.config.verdict = .ok () ∧ w.engine = .ofConfig w.config ∧
        w.config.same (accepted.getLast?.getD fallback) = true ∧
        Config.InForce (fallback :: accepted) w.config) ∧
    ∀ (s : Server) (e : Errand), e.mayBring = true →
      (e.payload? s.client).bind (Config.accepted? host.parserVariable) = none →
      (s.attend host e).1.workspace = s.workspace ∧ publications (s.attend host e).2 = [] := by
  refine ⟨fun errands => ?_, fun s e he hnone => (brings_attend host s he).refused hnone⟩
  have hstart : Configured [.ofEnvironment host.parserVariable] (Transcript.start host).server :=
    configured_start host
  have hrun := hstart.foldl host errands
  exact ⟨hrun.usable, hrun.follows.2, hrun.inForce.same_getLast, hrun.inForce⟩

/-- A section that says nothing comes after one that names a parser: the parser stays. -/
theorem configuration_stays_in_force_despite_null :
    let host : Host := ⟨[], none, none, .ok⟩
    let s := ((Transcript.start host).attend host (.greet ⟨{}, some (naming "/opt/p")⟩)).server
    let e := Errand.changeSettings [] (.obj [(settingsSection, .null)])
    (e.mayBring = true ∧
      (e.payload? s.client).bind (Config.accepted? host.parserVariable) = none) ∧
    s.workspace.config = ⟨some "/opt/p", defaultTimeout⟩ ∧
    (s.attend host e).1.workspace = s.workspace ∧ publications (s.attend host e).2 = [] :=
  ⟨⟨rfl, by decide +kernel⟩, by decide +kernel,
    (configuration_stays_in_force ⟨[], none, none, .ok⟩).2 _ _ rfl (by decide +kernel)⟩

/-- **The spelling matters**: with a slash at its end a path is not that of a program, and the path
    without it is taken for the same. So the last accepted configuration is not adopted, and the
    validator is not the one that it asks for. -/
theorem respelled_path_is_not_adopted :
    ∃ (host : Host) (errands : List Errand) (last : Config),
      let s := (errands.foldl (Transcript.attend host) (Transcript.start host)).server
      ((payloads {} errands).filterMap (Config.accepted? host.parserVariable)).getLast? =
        some last ∧
      s.workspace.config ≠ last ∧ s.activeValidator host = "built-in" ∧
      (Workspace.ofConfig last).activeValidator host = "external parser" :=
  ⟨⟨[("/opt/p", ⟨fun _ => .refused ""⟩)], none, none, .ok⟩,
    [.greet ⟨{}, some (naming "/opt/p/")⟩, .changeSettings [] (naming "/opt/p")],
    ⟨some "/opt/p", defaultTimeout⟩, by decide +kernel⟩

end Server

end Nsql
