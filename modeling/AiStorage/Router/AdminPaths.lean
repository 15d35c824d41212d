import AiStorage.Lib.PathEscape
import AiStorage.Router.Lifecycle

/-!
# Admin requests that name a worker

`POST /admin/workers/{id}/drain` and `/undrain`. The server has unescaped the path once before
the handler splits it at the slashes and unescapes the ID again.
-/
namespace AiStorage.Router
open Lib

def goBytes (s : String) : Bytes := (ScalarText.ofString s).utf8

theorem goBytes_injective : Function.Injective goBytes := by
  intro s t same
  have texts : text s = text t := congrArg Subtype.val (ScalarText.utf8_injective same)
  apply String.toList_injective
  apply List.map_injective_iff.mpr _ texts
  intro c d points
  have codes : c.toNat = d.toNat := congrArg (fun point : CodePoint => point.val) points
  exact Char.ext (UInt32.toNat_inj.mp codes)

/-! ### The switch of `serveAdminHTTP` -/

def trimPrefix (path start : Bytes) : Bytes :=
  if start.isPrefixOf path then path.drop start.length else path

def workerIDFromAdminAction (path : Bytes) : Option Bytes :=
  let rest := trimPrefix path (goBytes "/admin/workers/")
  if rest = path || rest = [] then none
  else
    match rest.splitOn slashByte with
    | [name, action] =>
      if name = [] || (action ≠ goBytes "drain" && action ≠ goBytes "undrain") then none
      else
        match pathUnescape name with
        | none => none
        | some id => if isBlank id then none else some id
    | _ => none

def isWorkerAdminAction (path : Bytes) (action : String) : Bool :=
  (workerIDFromAdminAction path).isSome && (goBytes ("/" ++ action)).isSuffixOf path

inductive Method where
  | get
  | post
  | other
  deriving DecidableEq

inductive AdminRoute where
  | healthz
  | readyz
  | metrics
  | listWorkers
  | replaceWorkers
  | drain
  | undrain
  | events
  | notFound
  deriving DecidableEq

def adminRoute (method : Method) (path : Bytes) : AdminRoute :=
  if method = .get && path = goBytes "/healthz" then .healthz
  else if method = .get && path = goBytes "/readyz" then .readyz
  else if method = .get && path = goBytes "/metrics" then .metrics
  else if method = .get && path = goBytes "/admin/workers" then .listWorkers
  else if method = .post && path = goBytes "/admin/workers" then .replaceWorkers
  else if method = .post && isWorkerAdminAction path "drain" then .drain
  else if method = .post && isWorkerAdminAction path "undrain" then .undrain
  else if method = .post && path = goBytes "/admin/events" then .events
  else .notFound

namespace Handler

def handleWorkerDrainPath (h : Handler) (path : Bytes) (drain : Bool) (now : Time) :
    Reply × Handler :=
  match workerIDFromAdminAction path with
  | none => (.text 404 "not found\n", h)
  | some id =>
    -- the comparison `h.workers[i].ID != common.WorkerID(workerID)` is one of bytes
    match h.workers.find? fun worker => goBytes worker.id = id with
    | none => (.text 404 "worker not found\n", h)
    | some worker => h.handleWorkerDrain worker.id drain now

/-- What the server does to the registry for a `POST` whose target is neither the worker
list nor an event; those two have handlers of their own. -/
def postAction (h : Handler) (target : Bytes) (now : Time) : Option (Reply × Handler) :=
  -- `net/http` answers a target that does not unescape itself
  match pathUnescape target with
  | none => some (.text 400 "400 Bad Request", h)
  | some path =>
    match adminRoute .post path with
    | .drain => some (h.handleWorkerDrainPath path true now)
    | .undrain => some (h.handleWorkerDrainPath path false now)
    | .notFound => some (.text 404 "not found\n", h)
    | _ => none

end Handler

/-! ### Requests for a worker -/

def actionOf (drain : Bool) : String := if drain then "drain" else "undrain"

/-- The path `/admin/workers/{name}/drain`, or `/undrain`. -/
def actionPath (name : Bytes) (drain : Bool) : Bytes :=
  goBytes "/admin/workers/" ++ (name ++ slashByte :: goBytes (actionOf drain))

def actionTarget (name : Bytes) (drain : Bool) : Bytes :=
  goBytes "/admin/workers/" ++ (pathEscape name ++ slashByte :: goBytes (actionOf drain))

theorem pathUnescape_actionTarget (name : Bytes) (drain : Bool) :
    pathUnescape (actionTarget name drain) = some (actionPath name drain) := by
  have front : percentByte ∉ goBytes "/admin/workers/" := by decide
  have action : percentByte ∉ slashByte :: goBytes (actionOf drain) := by
    cases drain
    · decide
    · decide
  rw [actionTarget, pathUnescape_plain_append front, pathUnescape_pathEscape_append,
    pathUnescape_plain action]
  rfl

/-- The ID that the handler reads from the path of a request for `name`. -/
def readName (name : Bytes) : Option Bytes :=
  if slashByte ∈ name then none else (pathUnescape name).filter fun id => !isBlank id

section Split

variable {name action : Bytes}

theorem splitOn_action (whole : slashByte ∉ name) (last : slashByte ∉ action) :
    (name ++ slashByte :: action).splitOn slashByte = [name, action] := by
  have inName : ∀ b ∈ name, (b == slashByte) = false := by
    intro b member
    exact beq_eq_false_iff_ne.mpr fun same => whole (same ▸ member)
  have inAction : ∀ b ∈ action, (b == slashByte) = false := by
    intro b member
    exact beq_eq_false_iff_ne.mpr fun same => last (same ▸ member)
  rw [List.splitOn, List.splitOnP_append_cons_of_forall_mem inName _ (by simp),
    List.splitOnP_eq_singleton inAction]

theorem splitOn_slash (cut : slashByte ∈ name) (first last : Bytes) :
    (name ++ slashByte :: action).splitOn slashByte ≠ [first, last] := by
  obtain ⟨front, back, rfl⟩ := List.append_of_mem cut
  intro parts
  have count := congrArg List.length parts
  rw [List.append_assoc, List.cons_append, List.splitOn, List.splitOnP_append_cons _ _ (by simp),
    List.splitOnP_append_cons _ _ (by simp)] at count
  have one := List.length_pos_iff.mpr (List.splitOnP_ne_nil (· == slashByte) front)
  have two := List.length_pos_iff.mpr (List.splitOnP_ne_nil (· == slashByte) back)
  have three := List.length_pos_iff.mpr (List.splitOnP_ne_nil (· == slashByte) action)
  simp only [List.length_append, List.length_cons, List.length_nil] at count
  omega

end Split

theorem trimPrefix_append (start rest : Bytes) : trimPrefix (start ++ rest) start = rest := by
  have front : start.isPrefixOf (start ++ rest) = true :=
    List.isPrefixOf_iff_prefix.mpr (List.prefix_append start rest)
  rw [trimPrefix, if_pos front, List.drop_left]

theorem goBytes_actionOf (drain : Bool) :
    goBytes (actionOf drain) = goBytes "drain" ∨ goBytes (actionOf drain) = goBytes "undrain" := by
  cases drain
  · right
    rfl
  · left
    rfl

theorem slash_not_mem_action (drain : Bool) : slashByte ∉ goBytes (actionOf drain) := by
  cases drain
  · decide
  · decide

theorem workerIDFromAdminAction_actionPath (name : Bytes) (drain : Bool) :
    workerIDFromAdminAction (actionPath name drain) = readName name := by
  have shorter : name ++ slashByte :: goBytes (actionOf drain) ≠ actionPath name drain := by
    intro same
    have front : goBytes "/admin/workers/" = [] := List.self_eq_append_left.mp same
    exact absurd front (by decide)
  rw [workerIDFromAdminAction, actionPath, trimPrefix_append, ← actionPath,
    if_neg (by simp [shorter])]
  by_cases cut : slashByte ∈ name
  · rw [readName, if_pos cut]
    split
    · next first last parts => exact absurd parts (splitOn_slash cut first last)
    · rfl
  · rw [readName, if_neg cut, splitOn_action cut (slash_not_mem_action drain)]
    have known : (decide (goBytes (actionOf drain) ≠ goBytes "drain") &&
        decide (goBytes (actionOf drain) ≠ goBytes "undrain")) = false := by
      rcases goBytes_actionOf drain with same | same
      · simp [same]
      · simp [same]
    simp only [known, Bool.or_false]
    by_cases empty : name = []
    · subst empty
      rfl
    · simp only [empty, decide_false]
      cases pathUnescape name with
      | none => rfl
      | some id =>
        cases blank : isBlank id with
        | false => simp [Option.filter, blank]
        | true => simp [Option.filter, blank]

theorem isSuffixOf_actionPath (name : Bytes) (drain action : Bool) :
    (goBytes ("/" ++ actionOf action)).isSuffixOf (actionPath name drain) =
      decide (drain = action) := by
  have own : (slashByte :: goBytes (actionOf drain)) <:+ actionPath name drain := by
    rw [actionPath, ← List.append_assoc]
    exact List.suffix_append _ _
  have same : goBytes ("/" ++ actionOf action) = slashByte :: goBytes (actionOf action) := by
    cases action
    · rfl
    · rfl
  rw [same]
  by_cases equal : drain = action
  · subst equal
    rw [decide_eq_true rfl, List.isSuffixOf_iff_suffix]
    exact own
  · rw [decide_eq_false equal, Bool.eq_false_iff, ne_eq, List.isSuffixOf_iff_suffix]
    intro other
    -- of two endings of one path the shorter ends the longer, and `/drain` does not end `/undrain`
    cases drain with
    | false =>
      cases action with
      | false => exact equal rfl
      | true => exact absurd (List.suffix_of_suffix_length_le other own (by decide)) (by decide)
    | true =>
      cases action with
      | false => exact absurd (List.suffix_of_suffix_length_le own other (by decide)) (by decide)
      | true => exact equal rfl

theorem adminRoute_actionPath (name : Bytes) (drain : Bool) :
    adminRoute .post (actionPath name drain) =
      if (readName name).isSome then (if drain then .drain else .undrain) else .notFound := by
  have inside : goBytes "/admin/workers/" <+: actionPath name drain := List.prefix_append _ _
  have workers : actionPath name drain ≠ goBytes "/admin/workers" := by
    intro same
    rw [same] at inside
    exact absurd inside (by decide)
  have events : actionPath name drain ≠ goBytes "/admin/events" := by
    intro same
    rw [same] at inside
    exact absurd inside (by decide)
  have drains := isSuffixOf_actionPath name drain true
  have undrains := isSuffixOf_actionPath name drain false
  simp only [adminRoute, isWorkerAdminAction, workerIDFromAdminAction_actionPath, workers, events]
  change (goBytes ("/" ++ "drain")).isSuffixOf _ = _ at drains
  change (goBytes ("/" ++ "undrain")).isSuffixOf _ = _ at undrains
  rw [drains, undrains]
  cases readName name with
  | none => rfl
  | some id =>
    cases drain
    · rfl
    · rfl

namespace Handler

variable (h : Handler)

def named (name : Bytes) : Option WorkerState :=
  (readName name).bind fun id => h.workers.find? fun worker => goBytes worker.id = id

def actOn (name : Bytes) (drain : Bool) (now : Time) : Handler :=
  ((h.named name).map fun worker => (h.handleWorkerDrain worker.id drain now).2).getD h

theorem handleWorkerDrainPath_actionPath (name : Bytes) (drain : Bool) (now : Time) :
    (h.handleWorkerDrainPath (actionPath name drain) drain now).2 = h.actOn name drain now := by
  rw [handleWorkerDrainPath, workerIDFromAdminAction_actionPath, actOn, named]
  cases readName name with
  | none => rfl
  | some id =>
    simp only [Option.bind_some]
    cases h.workers.find? fun worker => goBytes worker.id = id with
    | none => rfl
    | some worker => rfl

theorem postAction_actionTarget (name : Bytes) (drain : Bool) (now : Time) :
    (h.postAction (actionTarget name drain) now).map Prod.snd = some (h.actOn name drain now) := by
  have reached := h.handleWorkerDrainPath_actionPath name drain now
  rw [postAction, pathUnescape_actionTarget]
  simp only [adminRoute_actionPath]
  cases read : readName name with
  | none => simp [actOn, named, read]
  | some id =>
    cases drain
    · exact congrArg some reached
    · exact congrArg some reached

/-- The name is read back as it is: it has no slash and no percent sign, and something
other than white space. -/
structure Plain (name : Bytes) : Prop where
  slash : slashByte ∉ name
  percent : percentByte ∉ name
  filled : isBlank name = false

theorem readName_eq_self_iff (name : Bytes) : readName name = some name ↔ Plain name := by
  constructor
  · intro read
    rw [readName] at read
    split_ifs at read with cut
    obtain ⟨same, filled⟩ := Option.filter_eq_some_iff.mp read
    refine ⟨cut, ?_, by simpa using filled⟩
    intro escaped
    exact pathUnescape_ne_self escaped same
  · intro plain
    rw [readName, if_neg plain.slash, pathUnescape_plain plain.percent]
    simp [Option.filter, plain.filled]

variable {h}

variable {worker : WorkerState}

theorem named_eq_some {name : Bytes} (found : h.named name = some worker) :
    worker ∈ h.workers ∧ readName name = some (goBytes worker.id) := by
  obtain ⟨id, read, found⟩ := Option.bind_eq_some_iff.mp found
  have same : goBytes worker.id = id := by simpa using List.find?_some found
  exact ⟨List.mem_of_find?_eq_some found, same ▸ read⟩

theorem actOn_of_some (distinct : (h.workers.map (·.id)).Nodup) {name : Bytes}
    (found : h.named name = some worker) (drain : Bool) (now : Time) :
    h.actOn name drain now =
      { h with workers := h.workers.map (drainOne worker.id drain now) } := by
  rw [actOn, found]
  exact handleWorkerDrain_workers distinct worker.id drain now

theorem actOn_of_none {name : Bytes} (missing : h.named name = none) (drain : Bool) (now : Time) :
    h.actOn name drain now = h := by
  rw [actOn, missing]
  rfl

theorem draining_of_drained {workers : List WorkerState} {id : WorkerID} {drain : Bool}
    {now : Time} (member : worker ∈ workers.map (drainOne id drain now))
    (same : worker.id = id) : worker.draining = drain := by
  obtain ⟨before, -, rfl⟩ := List.mem_map.mp member
  rw [(drainOne_kept id drain now before).1] at same
  rw [drainOne, if_pos same]
  cases drain
  · rfl
  · rfl

theorem not_drained_and_undrained (before : List WorkerState)
    (after : Bool → List WorkerState) (kept : ∀ drain, worker ∈ after drain)
    (each : ∀ drain, after drain = before.map (drainOne worker.id drain 0)) : False := by
  have drained : worker.draining = true := draining_of_drained (each true ▸ kept true) rfl
  have undrained : worker.draining = false := draining_of_drained (each false ▸ kept false) rfl
  rw [drained] at undrained
  cases undrained

theorem actOn_own_iff (distinct : (h.workers.map (·.id)).Nodup) (member : worker ∈ h.workers) :
    (∀ drain now, h.actOn (goBytes worker.id) drain now =
      { h with workers := h.workers.map (drainOne worker.id drain now) }) ↔
        Plain (goBytes worker.id) := by
  constructor
  · intro reached
    have lists : ∀ drain, (h.actOn (goBytes worker.id) drain 0).workers =
        h.workers.map (drainOne worker.id drain 0) :=
      fun drain => congrArg Handler.workers (reached drain 0)
    cases found : h.named (goBytes worker.id) with
    | none =>
      refine (not_drained_and_undrained _ _ (fun drain => ?_) lists).elim
      rw [actOn_of_none found]
      exact member
    | some other =>
      by_cases same : other.id = worker.id
      · rw [← readName_eq_self_iff, ← same]
        rw [← same] at found
        exact (named_eq_some found).2
      · refine (not_drained_and_undrained _ _ (fun drain => ?_) lists).elim
        rw [actOn_of_some distinct found]
        apply List.mem_map.mpr
        exact ⟨worker, member, if_neg (Ne.symm same)⟩
  · intro plain drain now
    have read := (readName_eq_self_iff _).mpr plain
    have some : (h.named (goBytes worker.id)).isSome = true := by
      rw [named, read, Option.bind_some, List.find?_isSome]
      exact ⟨worker, member, decide_eq_true rfl⟩
    obtain ⟨other, found⟩ := Option.isSome_iff_exists.mp some
    have same : other.id = worker.id := by
      apply goBytes_injective
      have other_read := (named_eq_some found).2
      rw [read] at other_read
      exact (Option.some.inj other_read).symm
    rw [actOn_of_some distinct found, same]

/-- The name unescapes to the ID of a registered worker. -/
def Aliases (h : Handler) (name : Bytes) : Prop :=
  ∃ worker ∈ h.workers, slashByte ∉ name ∧ pathUnescape name = some (goBytes worker.id) ∧
    isBlank (goBytes worker.id) = false

theorem named_isSome_iff (name : Bytes) : (h.named name).isSome = true ↔ h.Aliases name := by
  constructor
  · intro some
    obtain ⟨worker, found⟩ := Option.isSome_iff_exists.mp some
    obtain ⟨member, read⟩ := named_eq_some found
    rw [readName] at read
    split_ifs at read with cut
    obtain ⟨same, filled⟩ := Option.filter_eq_some_iff.mp read
    exact ⟨worker, member, cut, same, by simpa using filled⟩
  · rintro ⟨worker, member, cut, same, filled⟩
    have read : readName name = some (goBytes worker.id) := by
      rw [readName, if_neg cut, same]
      simp [Option.filter, filled]
    rw [named, read, Option.bind_some, List.find?_isSome]
    exact ⟨worker, member, decide_eq_true rfl⟩

theorem actOn_unchanged_iff (distinct : (h.workers.map (·.id)).Nodup) (name : Bytes) :
    (∀ drain now, h.actOn name drain now = h) ↔ ¬ h.Aliases name := by
  rw [← named_isSome_iff]
  constructor
  · intro unchanged some
    obtain ⟨worker, found⟩ := Option.isSome_iff_exists.mp some
    refine not_drained_and_undrained h.workers (fun _ => h.workers)
      (fun _ => (named_eq_some found).1) fun drain => ?_
    have after := unchanged drain 0
    rw [actOn_of_some distinct found] at after
    exact (congrArg Handler.workers after).symm
  · intro missing drain now
    exact actOn_of_none (Option.not_isSome_iff_eq_none.mp missing) drain now

/-- A request for a registered worker changes the drain state of that worker alone
exactly when its ID is plain; a request for any other name changes nothing exactly when
the name does not unescape to a registered ID. -/
theorem drain_request_exact (h : Handler) (distinct : (h.workers.map (·.id)).Nodup) :
    (∀ worker ∈ h.workers,
      (∀ drain now, (h.postAction (actionTarget (goBytes worker.id) drain) now).map Prod.snd =
        some { h with workers := h.workers.map (drainOne worker.id drain now) }) ↔
          Plain (goBytes worker.id)) ∧
    ∀ name, (∀ worker ∈ h.workers, goBytes worker.id ≠ name) →
      ((∀ drain now, (h.postAction (actionTarget name drain) now).map Prod.snd = some h) ↔
        ¬ h.Aliases name) := by
  constructor
  · intro worker member
    simp only [postAction_actionTarget, Option.some.injEq]
    exact actOn_own_iff distinct member
  · intro name _
    simp only [postAction_actionTarget, Option.some.injEq]
    exact actOn_unchanged_iff distinct name

def ofIDs (ids : List WorkerID) : Handler where
  index := Index.new 1
  entryTopology := {}
  workers := ids.map fun id => { id := id, url := "http://127.0.0.1:9000" }
  routerInflight := ∅

theorem drain_request_exact_plain :
    ((ofIDs ["a", "b"]).postAction (actionTarget (goBytes "b") true) 1).map Prod.snd =
      some { ofIDs ["a", "b"] with
        workers := (ofIDs ["a", "b"]).workers.map (drainOne "b" true 1) } :=
  ((drain_request_exact (ofIDs ["a", "b"]) (by decide)).1
    { id := "b", url := "http://127.0.0.1:9000" } (by decide)).mpr
      ⟨by decide, by decide, by decide⟩ true 1

/-- Draining `a%62` drains `ab` in its place, registered or not. -/
theorem drain_request_misses :
    ((ofIDs ["a%62", "ab"]).postAction (actionTarget (goBytes "a%62") true) 1).map
        (fun answer => answer.2.workers.map fun worker => (worker.id, worker.draining)) =
      some [("a%62", false), ("ab", true)] ∧
    ((ofIDs ["ab"]).postAction (actionTarget (goBytes "a%62") true) 1).map
        (fun answer => answer.2.workers.map fun worker => (worker.id, worker.draining)) =
      some [("ab", true)] := by
  decide +kernel

end Handler

end AiStorage.Router
