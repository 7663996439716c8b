/-
# Access.BindingMatrix -- one preview for each slot

`select_bola_binding` and `preview_bola_binding_matrix`.  The multi-binding preview reads its
arguments in one pass, selects the bindings in a second and previews each resource once in a
third; slot by slot it is the selection of the binding and the preview of its resource
(`previewBolaBindingMatrix_ok`).

`SENSITIVE_MATERIAL.search` is the parameter `sensitive`.
-/
import ApiSecurityPlatform.Access.Matrix
import ApiSecurityPlatform.Theory.Memo

namespace ApiSecurityPlatform.Access

open ApiSecurityPlatform.Python ApiSecurityPlatform.Theory

set_option autoImplicit false

def maxBolaBindingParameters : Nat := 256
def maxBolaMatrixAssignments : Nat := 32
def maxEndpointPath : Nat := 500

section Selection

variable {F : Type} (sensitive : Str → Bool)

/-! ## Selection -/

/-- `[A-Za-z_][A-Za-z0-9_.-]{0,127}\Z`. -/
def isParameterName : Str → Bool
  | [] => false
  | first :: rest =>
      (isAsciiAlpha first || first = '_') && rest.length ≤ 127 &&
        rest.all fun c => isAsciiAlpha c || isDigit c || c = '_' || c = '.' || c = '-'

/-- `validate_resource_binding_selector` for `path` and `query`. -/
def validSelector (value : Str) : Bool := !sensitive value && isParameterName value

/-- The loop of `_validate_path`; `name` is what was read since an open brace. -/
def pathNames : Option Str → List Str → Str → Except Fault (List Str)
  | none, names, [] => .ok names
  | some _, _, [] => .error .bolaBindingEndpointMetadataInvalid
  | name, names, c :: rest =>
      if c = '\x7b' then
        match name with
        | some _ => .error .bolaBindingEndpointMetadataInvalid
        | none => pathNames (some []) names rest
      else if c = '\x7d' then
        match name with
        | none => .error .bolaBindingEndpointMetadataInvalid
        | some name => do
            refuse (¬ validSelector sensitive name) .bolaBindingEndpointMetadataInvalid
            refuse (name ∈ names) .bolaBindingSelectorAmbiguous
            pathNames none (name :: names) rest
      else pathNames (name.map (· ++ [c])) names rest

/-- `_validate_path`. -/
def validatePath (path selector : Str) : Except Fault Unit := do
  refuse (maxEndpointPath < path.length) .bolaBindingEndpointMetadataInvalid
  let names ← pathNames sensitive none [] path
  refuse (selector ∉ names) .bolaBindingSelectorNotDeclared

/-- The name and place of a parameter. -/
def readParameter : Json F → Except Fault (Str × Str)
  | .object members =>
      match members.lookup "name".toList, members.lookup "in".toList with
      | some (.string name), some (.string location) => do
          refuse (name = [] ∨ location ∉ ["path", "query", "header", "cookie"].map String.toList)
            .bolaBindingEndpointMetadataInvalid
          return (name, location)
      | _, _ => .error .bolaBindingEndpointMetadataInvalid
  | _ => .error .bolaBindingEndpointMetadataInvalid

/-- `_validate_query`. -/
def validateQuery (parameters : Json F) (selector : Str) : Except Fault Unit :=
  match parameters with
  | .array items => do
      refuse (maxBolaBindingParameters < items.length) .bolaBindingParameterLimitExceeded
      let declared ← items.mapM readParameter
      let found := declared.filter fun p => p.2 = "query".toList ∧ p.1 = selector
      refuse (found.length = 0) .bolaBindingSelectorNotDeclared
      refuse (1 < found.length) .bolaBindingSelectorAmbiguous
  | _ => .error .bolaBindingEndpointMetadataInvalid

/-- `BOLAReviewedBindingSelection`. -/
structure BindingSelection where
  endpointId : Int
  bindingId : Int
  location : Location
  selector : Str
  reviewState : ReviewState
deriving DecidableEq

/-- The slot is declared once by the endpoint. -/
def validateSlot (endpoint : Endpoint F) (binding : EndpointResourceBinding) : Except Fault Unit :=
  if binding.location = .path then validatePath sensitive endpoint.path binding.selector
  else validateQuery endpoint.parameters binding.selector

/-- `select_bola_binding`. -/
def selectBolaBinding (db : Db F) (endpointId bindingId : Arg) : Except Fault BindingSelection := do
  refuse (¬ db.clean) .bolaBindingSelectionSessionNotClean
  let endpointId ← require .bolaBindingSelectionInvalidInput (positiveId endpointId)
  let bindingId ← require .bolaBindingSelectionInvalidInput (positiveId bindingId)
  let endpoint ← require .endpointNotFound (db.endpoint endpointId)
  let binding ← require .bolaBindingNotFound (db.binding bindingId)
  refuse (binding.endpointId ≠ endpointId) .bolaBindingEndpointMismatch
  refuse (binding.reviewState ≠ .confirmed) .bolaBindingNotConfirmed
  refuse (binding.location ≠ .path ∧ binding.location ≠ .query) .bolaBindingLocationUnsupported
  refuse (¬ validSelector sensitive binding.selector) .bolaBindingSelectorInvalid
  validateSlot sensitive endpoint binding
  return ⟨endpointId, bindingId, binding.location, binding.selector, binding.reviewState⟩

/-- A selection names what was asked for, and a slot. -/
theorem selectBolaBinding_ok {db : Db F} {endpointId bindingId : Int} {selected : BindingSelection}
    (done : selectBolaBinding sensitive db (.int endpointId) (.int bindingId) = .ok selected) :
    selected.endpointId = endpointId ∧ selected.bindingId = bindingId ∧ selected.reviewState = .confirmed ∧
      (selected.location = .path ∨ selected.location = .query) ∧ selected.selector ≠ [] := by
  rw [selectBolaBinding, seq_ok] at done
  simp only [bind_ok, refuse_ok, require_ok, not_not] at done
  obtain ⟨-, e, givenEndpoint, b, givenBinding, endpoint, -, binding, -, _, -, _, confirmed, _, located, _, named, _, -,
    done⟩ := done
  cases Except.ok.inj done
  obtain ⟨same, -⟩ := positiveId_eq_some.1 givenEndpoint
  obtain ⟨same', -⟩ := positiveId_eq_some.1 givenBinding
  refine ⟨(Arg.int.inj same).symm, (Arg.int.inj same').symm, confirmed, ?_, ?_⟩
  · rwa [not_and_or, not_not, not_not] at located
  · intro empty
    have empty : binding.selector = [] := empty
    rw [empty, validSelector, isParameterName, Bool.and_false] at named
    cases named

/-! ## Multi-binding preview -/

/-- `BOLAResourceSlotAssignment`. -/
structure SlotAssignment where
  bindingId : Int
  resourceId : Int
deriving DecidableEq

/-- An item where an assignment is meant. -/
inductive AssignmentArg where
  | assignment (bindingId resourceId : Arg)
  | other

def AssignmentArg.read : AssignmentArg → Except Fault SlotAssignment
  | .assignment bindingId resourceId => do
      let bindingId ← require .bolaBindingMatrixInvalidInput (positiveId bindingId)
      let resourceId ← require .bolaBindingMatrixInvalidInput (positiveId resourceId)
      return ⟨bindingId, resourceId⟩
  | .other => .error .bolaBindingMatrixInvalidInput

structure AssignedSlotPreview where
  binding : BindingSelection
  preview : MatrixPreview
deriving DecidableEq

structure MultiBindingPreview where
  endpointId : Int
  evaluationTime : Stamp
  testIdentityIds : List Int
  slots : List AssignedSlotPreview
deriving DecidableEq

/-- The loop over the assignments. -/
def readAssignments (assignments : Option (Source AssignmentArg)) : Except Fault (List SlotAssignment) := do
  let source ← require .bolaBindingMatrixInvalidInput assignments
  let (_, proposed) ← source.drain
    (Source.distinct AssignmentArg.read SlotAssignment.bindingId (fun a => [a]) .bolaBindingMatrixDuplicateBinding)
    .bolaBindingMatrixAssignmentLimitExceeded maxBolaMatrixAssignments ([], [])
  refuse (proposed = []) .bolaBindingMatrixInvalidInput
  return proposed

/-- The binding of an assignment, with the check of what was selected. -/
def selectAssigned (db : Db F) (endpointId : Int) (a : SlotAssignment) : Except Fault BindingSelection := do
  let binding ← selectBolaBinding sensitive db (.int endpointId) (.int a.bindingId)
  refuse (binding.endpointId ≠ endpointId ∨ binding.bindingId ≠ a.bindingId ∨ binding.reviewState ≠ .confirmed ∨
    (binding.location ≠ .path ∧ binding.location ≠ .query) ∨ binding.selector = []) .bolaBindingMatrixDependencyMismatch
  return binding

def BindingSelection.slot (b : BindingSelection) : Location × Str := (b.location, b.selector)

/-- `_check_preview`, on times whose `astimezone` is within its years: the request schema refuses others. -/
def checkPreview (preview : MatrixPreview) (endpointId resourceId : Int) (identityIds : List Int)
    (evaluationTime : Stamp) : Except Fault Unit :=
  refuse (preview.endpointId ≠ endpointId ∨ preview.resourceId ≠ resourceId ∨ preview.evaluationTime = .naive ∨
    preview.evaluationTime ≠ evaluationTime ∨
    (¬ ∀ f ∈ preview.facts, f.endpointId = endpointId ∧ f.resourceId = resourceId) ∨
    (preview.facts.map fun f => f.testIdentityId) ≠ identityIds) .bolaBindingMatrixDependencyMismatch

/-- The preview of one resource, checked. -/
def previewResource (db : Db F) (endpointId : Int) (identityIds : List Int) (evaluationTime : Stamp) (resourceId : Int) :
    Except Fault MatrixPreview := do
  let preview ← previewBolaMatrix db (.int endpointId) (.int resourceId) (some (Source.of (identityIds.map Arg.int)))
    (some evaluationTime)
  checkPreview preview endpointId resourceId identityIds evaluationTime
  return preview

/-- The slot of a binding, with the preview that is kept for its resource. -/
def keptSlot (previews : List (Int × MatrixPreview)) (pair : BindingSelection × SlotAssignment) :
    Except Fault AssignedSlotPreview := do
  let preview ← require .keyError (previews.lookup pair.2.resourceId)
  return ⟨pair.1, preview⟩

/-- `preview_bola_binding_matrix`. -/
def previewBolaBindingMatrix (db : Db F) (endpointId : Arg) (assignments : Option (Source AssignmentArg))
    (testIdentityIds : Option (Source Arg)) (evaluationTime : Option Stamp) : Except Fault MultiBindingPreview := do
  refuse (¬ db.clean) .bolaBindingMatrixSessionNotClean
  let endpointId ← require .bolaBindingMatrixInvalidInput (positiveId endpointId)
  let evaluationTime ← require .bolaMatrixEvaluationTimeInvalid evaluationTime
  refuse (evaluationTime = .naive) .evaluationTimeTimezoneRequired
  let proposed ← readAssignments assignments
  let identityIds ← readIdentityIds testIdentityIds
  refuse (maxBolaMatrixFacts < proposed.length * identityIds.length) .bolaMatrixFactLimitExceeded
  let (_, bindings) ← proposed.foldlM (Source.distinct (selectAssigned sensitive db endpointId) BindingSelection.slot
    (fun b => [b]) .bolaBindingMatrixDuplicateSlot) ([], [])
  let previews ← (proposed.map SlotAssignment.resourceId).foldlM
    (Memo.ensure (previewResource db endpointId identityIds evaluationTime)) []
  refuse (bindings.length ≠ proposed.length) .valueError
  let slots ← (bindings.zip proposed).mapM (keptSlot previews)
  return ⟨endpointId, evaluationTime, identityIds, slots⟩

/-! ## The specification -/

def SlotAssignment.arg (a : SlotAssignment) : AssignmentArg := .assignment (.int a.bindingId) (.int a.resourceId)

/-- The bounds on the arguments. -/
structure Accepted (db : Db F) (endpointId : Arg) (assignments : Option (Source AssignmentArg))
    (testIdentityIds : Option (Source Arg)) (evaluationTime : Option Stamp) (e : Int) (proposed : List SlotAssignment)
    (identityIds : List Int) (now : Time) : Prop where
  clean : db.clean = true
  endpoint : endpointId = .int e ∧ 0 < e
  time : evaluationTime = some (.aware now)
  slots : ∃ source : Source AssignmentArg, assignments = some source ∧ source.Lists (proposed.map SlotAssignment.arg)
  positive : ∀ a ∈ proposed, 0 < a.bindingId ∧ 0 < a.resourceId
  any : proposed ≠ []
  few : proposed.length ≤ maxBolaMatrixAssignments
  distinct : (proposed.map SlotAssignment.bindingId).Nodup
  identities : ∃ source : Source Arg, testIdentityIds = some source ∧ source.Lists (identityIds.map Arg.int)
  positiveIdentities : ∀ i ∈ identityIds, 0 < i
  distinctIdentities : identityIds.Nodup
  fewIdentities : identityIds.length ≤ maxBolaMatrixFacts
  cells : proposed.length * identityIds.length ≤ maxBolaMatrixFacts

/-- One slot by itself: its binding is selected and its resource previewed. -/
structure SlotOf (db : Db F) (endpointId : Int) (identityIds : List Int) (now : Time) (a : SlotAssignment)
    (slot : AssignedSlotPreview) : Prop where
  selected : selectBolaBinding sensitive db (.int endpointId) (.int a.bindingId) = .ok slot.binding
  previewed : previewBolaMatrix db (.int endpointId) (.int a.resourceId) (some (Source.of (identityIds.map Arg.int)))
    (some (.aware now)) = .ok slot.preview

/-! ## The passes -/

theorem AssignmentArg.read_ok {arg : AssignmentArg} {a : SlotAssignment} :
    arg.read = .ok a ↔ arg = a.arg ∧ 0 < a.bindingId ∧ 0 < a.resourceId := by
  cases arg with
  | assignment bindingId resourceId =>
      rw [AssignmentArg.read, bind_ok, SlotAssignment.arg, AssignmentArg.assignment.injEq]
      constructor
      · rintro ⟨b, given, done⟩
        rw [bind_ok] at done
        obtain ⟨r, given', done⟩ := done
        obtain rfl := Except.ok.inj done
        obtain ⟨rfl, positive⟩ := positiveId_eq_some.1 (require_ok.1 given)
        obtain ⟨rfl, positive'⟩ := positiveId_eq_some.1 (require_ok.1 given')
        exact ⟨⟨rfl, rfl⟩, positive, positive'⟩
      · rintro ⟨⟨rfl, rfl⟩, positive, positive'⟩
        refine ⟨a.bindingId, require_ok.2 (positiveId_eq_some.2 ⟨rfl, positive⟩), ?_⟩
        rw [bind_ok]
        exact ⟨a.resourceId, require_ok.2 (positiveId_eq_some.2 ⟨rfl, positive'⟩), rfl⟩
  | other => exact iff_of_false (fun same => nomatch same) fun both => nomatch both.1

theorem read_assignments {args : List AssignmentArg} {proposed : List SlotAssignment} :
    List.Forall₂ (fun arg a => AssignmentArg.read arg = .ok a) args proposed ↔
      args = proposed.map SlotAssignment.arg ∧ ∀ a ∈ proposed, 0 < a.bindingId ∧ 0 < a.resourceId := by
  simp only [AssignmentArg.read_ok]
  induction proposed generalizing args with
  | nil => simp
  | cons a proposed ih =>
      rw [List.forall₂_cons_right_iff, List.map_cons, List.forall_mem_cons]
      constructor
      · rintro ⟨arg, rest, ⟨rfl, positive⟩, each, rfl⟩
        obtain ⟨rfl, others⟩ := ih.1 each
        exact ⟨rfl, positive, others⟩
      · rintro ⟨rfl, positive, others⟩
        exact ⟨_, _, ⟨rfl, positive⟩, ih.2 ⟨rfl, others⟩, rfl⟩

theorem readAssignments_ok {assignments : Option (Source AssignmentArg)} {proposed : List SlotAssignment} :
    readAssignments assignments = .ok proposed ↔
      (∃ source : Source AssignmentArg, assignments = some source ∧ source.Lists (proposed.map SlotAssignment.arg)) ∧
        (∀ a ∈ proposed, 0 < a.bindingId ∧ 0 < a.resourceId) ∧ proposed ≠ [] ∧
        proposed.length ≤ maxBolaMatrixAssignments ∧ (proposed.map SlotAssignment.bindingId).Nodup := by
  rw [readAssignments, bind_ok]
  constructor
  · rintro ⟨source, given, done⟩
    rw [bind_ok] at done
    obtain ⟨⟨seen, kept⟩, drained, done⟩ := done
    rw [seq_ok, refuse_ok] at done
    obtain ⟨any, done⟩ := done
    obtain rfl := Except.ok.inj done
    obtain ⟨args, lists, few, looped⟩ := Source.drain_ok.1 drained
    obtain ⟨read, each, nodup, -, same⟩ := Source.distinct_ok.1 looped
    obtain ⟨rfl, positive⟩ := read_assignments.1 each
    have whole : kept = read := by simpa using (Prod.mk.inj same).2
    rw [List.length_map] at few
    subst whole
    exact ⟨⟨source, require_ok.1 given, lists⟩, positive, any, few, nodup⟩
  · rintro ⟨⟨source, rfl, lists⟩, positive, any, few, nodup⟩
    refine ⟨source, rfl, ?_⟩
    rw [bind_ok]
    refine ⟨_, Source.drain_ok.2 ⟨_, lists, by rwa [List.length_map], Source.distinct_ok.2
      ⟨proposed, read_assignments.2 ⟨rfl, positive⟩, nodup, (fun _ _ seen => nomatch seen), rfl⟩⟩, ?_⟩
    rw [seq_ok, refuse_ok, List.nil_append, List.flatMap_singleton']
    exact ⟨any, rfl⟩

/-- What was selected passes its check. -/
theorem selectAssigned_ok {db : Db F} {e : Int} {a : SlotAssignment} {b : BindingSelection} :
    selectAssigned sensitive db e a = .ok b ↔ selectBolaBinding sensitive db (.int e) (.int a.bindingId) = .ok b := by
  rw [selectAssigned, bind_ok]
  constructor
  · rintro ⟨b', selected, done⟩
    rw [seq_ok] at done
    obtain rfl := Except.ok.inj done.2
    exact selected
  · intro selected
    refine ⟨b, selected, ?_⟩
    obtain ⟨endpoint, binding, confirmed, located, named⟩ := selectBolaBinding_ok sensitive selected
    rw [seq_ok, refuse_ok]
    refine ⟨?_, rfl⟩
    rintro (other | other | other | ⟨nowhere, nowhere'⟩ | nameless)
    · exact other endpoint
    · exact other binding
    · exact other confirmed
    · exact located.elim nowhere nowhere'
    · exact named nameless

theorem readIdentityIds_of {ids ids' : List Int} (read : readIdentityIds (some (Source.of (ids.map Arg.int))) = .ok ids') :
    ids' = ids := by
  obtain ⟨source, same, lists, -⟩ := readIdentityIds_ok.1 read
  obtain rfl := Option.some.inj same
  exact List.map_injective_iff.2 (fun _ _ => Arg.int.inj) (lists.unique (Source.lists_of _))

/-- What was previewed passes its check. -/
theorem previewResource_ok {db : Db F} {e r : Int} {ids : List Int} {now : Time} {p : MatrixPreview} :
    previewResource db e ids (.aware now) r = .ok p ↔
      previewBolaMatrix db (.int e) (.int r) (some (Source.of (ids.map Arg.int))) (some (.aware now)) = .ok p := by
  rw [previewResource, bind_ok]
  constructor
  · rintro ⟨p', previewed, done⟩
    rw [seq_ok] at done
    obtain rfl := Except.ok.inj done.2
    exact previewed
  · intro previewed
    refine ⟨p, previewed, ?_⟩
    obtain ⟨now', ids', time, evaluated, endpoint, resource, read, facts, -⟩ := previewBolaMatrix_ok previewed
    obtain rfl := Stamp.aware.inj (Option.some.inj time)
    obtain rfl := readIdentityIds_of read
    rw [seq_ok, checkPreview, refuse_ok]
    refine ⟨?_, rfl⟩
    rintro (other | other | naive | other | other | other)
    · exact other (Arg.int.inj endpoint).symm
    · exact other (Arg.int.inj resource).symm
    · cases evaluated.symm.trans naive
    · exact other evaluated
    · refine other fun f mem => ?_
      obtain ⟨i, -, _, _, -, -, same⟩ := forall₂_right facts f mem
      rw [same]
      exact ⟨(Arg.int.inj endpoint).symm, (Arg.int.inj resource).symm⟩
    · exact other (facts_identities facts)

/-- The bounds hold where the arguments are read. -/
theorem accepted_iff {db : Db F} {endpointId : Arg} {assignments : Option (Source AssignmentArg)}
    {testIdentityIds : Option (Source Arg)} {evaluationTime : Option Stamp} {e : Int} {proposed : List SlotAssignment}
    {ids : List Int} {now : Time} :
    Accepted db endpointId assignments testIdentityIds evaluationTime e proposed ids now ↔
      db.clean = true ∧ positiveId endpointId = some e ∧ evaluationTime = some (.aware now) ∧
        readAssignments assignments = .ok proposed ∧ readIdentityIds testIdentityIds = .ok ids ∧
        proposed.length * ids.length ≤ maxBolaMatrixFacts := by
  rw [positiveId_eq_some, readAssignments_ok, readIdentityIds_ok]
  constructor
  · intro accepted
    obtain ⟨source, given, lists⟩ := accepted.identities
    exact ⟨accepted.clean, accepted.endpoint, accepted.time,
      ⟨accepted.slots, accepted.positive, accepted.any, accepted.few, accepted.distinct⟩,
      ⟨source, given, lists, accepted.fewIdentities, accepted.distinctIdentities, accepted.positiveIdentities⟩,
      accepted.cells⟩
  · rintro ⟨clean, endpoint, time, ⟨slots, positive, any, few, distinct⟩,
      ⟨source, given, lists, fewIdentities, distinctIdentities, positiveIdentities⟩, cells⟩
    exact ⟨clean, endpoint, time, slots, positive, any, few, distinct, ⟨source, given, lists⟩, positiveIdentities,
      distinctIdentities, fewIdentities, cells⟩

theorem keptSlot_ok {previews : List (Int × MatrixPreview)} {pair : BindingSelection × SlotAssignment}
    {slot : AssignedSlotPreview} : keptSlot previews pair = .ok slot ↔
      slot.binding = pair.1 ∧ previews.lookup pair.2.resourceId = some slot.preview := by
  rw [keptSlot, bind_ok]
  constructor
  · rintro ⟨preview, found, done⟩
    obtain rfl := Except.ok.inj done
    exact ⟨rfl, require_ok.1 found⟩
  · rintro ⟨same, found⟩
    refine ⟨slot.preview, require_ok.2 found, ?_⟩
    rw [← same]
    rfl

/-- The bindings stand with the assignments, and so do the slots that are put together of them. -/
theorem slots_of_bindings {db : Db F} {e : Int} {ids : List Int} {now : Time} {proposed : List SlotAssignment}
    {bindings : List BindingSelection} {previews : List (Int × MatrixPreview)} {slots : List AssignedSlotPreview}
    (selected : List.Forall₂ (fun a b => selectAssigned sensitive db e a = .ok b) proposed bindings)
    (sound : Memo.Sound (previewResource db e ids (.aware now)) previews)
    (kept : List.Forall₂ (fun pair slot => keptSlot previews pair = .ok slot) (bindings.zip proposed) slots) :
    List.Forall₂ (SlotOf sensitive db e ids now) proposed slots ∧ slots.map AssignedSlotPreview.binding = bindings := by
  constructor
  · refine (forall₂_zip_left selected kept).imp ?_
    rintro a slot ⟨b, chosen, there⟩
    obtain ⟨rfl, found⟩ := keptSlot_ok.1 there
    exact ⟨(selectAssigned_ok sensitive).1 chosen, previewResource_ok.1 (sound _ _ found)⟩
  · clear sound
    induction selected generalizing slots with
    | nil =>
        cases kept
        rfl
    | cons first _ ih =>
        cases kept with
        | cons there others => rw [List.map_cons, ih others, (keptSlot_ok.1 there).1]

/-- A cache that has the previews gives the slots back. -/
theorem slots_kept {db : Db F} {e : Int} {ids : List Int} {now : Time} {proposed : List SlotAssignment}
    {previews : List (Int × MatrixPreview)} {slots : List AssignedSlotPreview}
    (sound : Memo.Sound (previewResource db e ids (.aware now)) previews)
    (total : ∀ a ∈ proposed, ∃ p, previews.lookup a.resourceId = some p)
    (each : List.Forall₂ (SlotOf sensitive db e ids now) proposed slots) :
    List.Forall₂ (fun pair slot => keptSlot previews pair = .ok slot)
      ((slots.map AssignedSlotPreview.binding).zip proposed) slots := by
  induction each with
  | nil => exact .nil
  | cons first _ ih =>
      obtain ⟨here, others⟩ := List.forall_mem_cons.1 total
      obtain ⟨p, found⟩ := here
      have same := (sound _ p found).symm.trans (previewResource_ok.2 first.previewed)
      exact .cons (keptSlot_ok.2 ⟨rfl, Except.ok.inj same ▸ found⟩) (ih others)

/-- **The preview is the slots, one by one.** -/
theorem previewBolaBindingMatrix_ok {db : Db F} {endpointId : Arg} {assignments : Option (Source AssignmentArg)}
    {testIdentityIds : Option (Source Arg)} {evaluationTime : Option Stamp} {m : MultiBindingPreview} :
    previewBolaBindingMatrix sensitive db endpointId assignments testIdentityIds evaluationTime = .ok m ↔
      ∃ proposed now, Accepted db endpointId assignments testIdentityIds evaluationTime m.endpointId proposed
          m.testIdentityIds now ∧ m.evaluationTime = .aware now ∧
        List.Forall₂ (SlotOf sensitive db m.endpointId m.testIdentityIds now) proposed m.slots ∧
        (m.slots.map fun slot => slot.binding.slot).Nodup := by
  constructor
  · intro done
    rw [previewBolaBindingMatrix, seq_ok] at done
    simp only [bind_ok, refuse_ok, require_ok, not_not, not_lt] at done
    obtain ⟨clean, e, givenEndpoint, stamp, given, _, zoned, proposed, readProposed, ids, readIds, _, cells,
      ⟨seen, bindings⟩, chosen, previews, filled, _, -, slots, kept, done⟩ := done
    cases Except.ok.inj done
    cases stamp with
    | naive => exact absurd rfl zoned
    | aware now =>
        obtain ⟨selected, each, nodup, -, same⟩ := Source.distinct_ok.1 chosen
        obtain rfl : bindings = selected := by simpa using (Prod.mk.inj same).2
        obtain ⟨slots_, whole⟩ := slots_of_bindings sensitive each (Memo.fill_lookup Memo.sound_nil filled).1
          (mapM_ok.1 kept)
        refine ⟨proposed, now, accepted_iff.2 ⟨clean, givenEndpoint, given, readProposed, readIds, cells⟩, rfl, slots_, ?_⟩
        rwa [← whole, List.map_map] at nodup
  · rintro ⟨proposed, now, accepted, time, slots, nodup⟩
    obtain ⟨clean, endpoint, given, readProposed, readIds, cells⟩ := accepted_iff.1 accepted
    have bindings : List.Forall₂ (fun a b => selectAssigned sensitive db m.endpointId a = .ok b) proposed
        (m.slots.map AssignedSlotPreview.binding) := by
      rw [List.forall₂_map_right_iff]
      exact slots.imp fun a slot each => (selectAssigned_ok sensitive).2 each.selected
    have each (r : Int) (mem : r ∈ proposed.map SlotAssignment.resourceId) :
        ∃ b, previewResource db m.endpointId m.testIdentityIds (.aware now) r = .ok b := by
      obtain ⟨a, inside, rfl⟩ := List.mem_map.1 mem
      obtain ⟨slot, -, each⟩ := forall₂_right slots.flip a inside
      exact ⟨slot.preview, previewResource_ok.2 each.previewed⟩
    obtain ⟨previews, filled⟩ := (Memo.fill_total Memo.sound_nil).2 each
    obtain ⟨sound, total, -⟩ := Memo.fill_lookup Memo.sound_nil filled
    have kept := mapM_ok.2 (slots_kept sensitive sound (fun a mem => total _ (List.mem_map_of_mem mem)) slots)
    rw [previewBolaBindingMatrix, seq_ok]
    simp only [bind_ok, refuse_ok, require_ok, not_not, not_lt]
    refine ⟨clean, m.endpointId, endpoint, .aware now, given, (), (fun same => by cases same), proposed, readProposed,
      m.testIdentityIds, readIds, (), cells, _, Source.distinct_ok.2 ⟨_, bindings, ?_, (fun _ _ seen => by cases seen), rfl⟩,
      previews, filled, (), ?_, m.slots, ?_, ?_⟩
    · rwa [List.map_map]
    · rw [List.nil_append, List.flatMap_singleton', bindings.length_eq]
    · rwa [List.nil_append, List.flatMap_singleton']
    · rw [← time]
      rfl

/-- Arguments are read in one way. -/
theorem Accepted.unique {db : Db F} {endpointId : Arg} {assignments : Option (Source AssignmentArg)}
    {testIdentityIds : Option (Source Arg)} {evaluationTime : Option Stamp} {e e' : Int} {proposed proposed' : List SlotAssignment}
    {ids ids' : List Int} {now now' : Time}
    (accepted : Accepted db endpointId assignments testIdentityIds evaluationTime e proposed ids now)
    (accepted' : Accepted db endpointId assignments testIdentityIds evaluationTime e' proposed' ids' now') :
    e' = e ∧ proposed' = proposed ∧ ids' = ids ∧ now' = now := by
  obtain ⟨-, endpoint, time, slots, identities, -⟩ := accepted_iff.1 accepted
  obtain ⟨-, endpoint', time', slots', identities', -⟩ := accepted_iff.1 accepted'
  exact ⟨Option.some.inj (endpoint'.symm.trans endpoint), Except.ok.inj (slots'.symm.trans slots),
    Except.ok.inj (identities'.symm.trans identities),
    Stamp.aware.inj (Option.some.inj (time'.symm.trans time))⟩

/-- The bindings are those that were asked for. -/
theorem slots_bindings {db : Db F} {e : Int} {ids : List Int} {now : Time} {proposed : List SlotAssignment}
    {slots : List AssignedSlotPreview} (each : List.Forall₂ (SlotOf sensitive db e ids now) proposed slots) :
    (slots.map fun slot => slot.binding.bindingId) = proposed.map SlotAssignment.bindingId := by
  induction each with
  | nil => rfl
  | cons first _ ih => rw [List.map_cons, List.map_cons, ih, (selectBolaBinding_ok sensitive first.selected).2.1]

theorem slots_cells {db : Db F} {e : Int} {ids : List Int} {now : Time} {proposed : List SlotAssignment}
    {slots : List AssignedSlotPreview} (each : List.Forall₂ (SlotOf sensitive db e ids now) proposed slots) :
    (slots.map fun slot => slot.preview.facts.length).sum = proposed.length * ids.length := by
  induction each with
  | nil => exact (Nat.zero_mul _).symm
  | cons first _ ih =>
      obtain ⟨_, ids', -, -, -, -, read, facts, -⟩ := previewBolaMatrix_ok first.previewed
      obtain rfl := readIdentityIds_of read
      rw [List.map_cons, List.sum_cons, ih, ← facts.length_eq, List.length_cons, Nat.succ_mul, Nat.add_comm]

/-- Of accepted arguments: some binding is not selected, two slots are the same or some resource is
not previewed. -/
def Fails (db : Db F) (e : Int) (proposed : List SlotAssignment) (ids : List Int) (now : Time) : Prop :=
  (∃ a ∈ proposed, ∀ b, selectBolaBinding sensitive db (.int e) (.int a.bindingId) ≠ .ok b) ∨
  (∃ a ∈ proposed, ∃ a' ∈ proposed, a ≠ a' ∧ ∃ b b', selectBolaBinding sensitive db (.int e) (.int a.bindingId) = .ok b ∧
    selectBolaBinding sensitive db (.int e) (.int a'.bindingId) = .ok b' ∧ b.slot = b'.slot) ∨
  ∃ a ∈ proposed, ∀ p, previewBolaMatrix db (.int e) (.int a.resourceId) (some (Source.of (ids.map Arg.int)))
    (some (.aware now)) ≠ .ok p

/-- Accepted arguments have their slots just where nothing fails. -/
theorem slots_iff {db : Db F} {e : Int} {proposed : List SlotAssignment} {ids : List Int} {now : Time}
    (distinct : proposed.Nodup) :
    (∃ slots, List.Forall₂ (SlotOf sensitive db e ids now) proposed slots ∧
      (slots.map fun slot => slot.binding.slot).Nodup) ↔ ¬ Fails sensitive db e proposed ids now := by
  constructor
  · rintro ⟨slots, each, nodup⟩ (⟨a, mem, unselected⟩ | ⟨a, mem, a', mem', differ, b, b', chosen, chosen', same⟩ |
      ⟨a, mem, unseen⟩)
    · obtain ⟨slot, -, holds⟩ := forall₂_right each.flip a mem
      exact unselected _ holds.selected
    · obtain ⟨slot, slot', holds, holds', apart⟩ := apart_of_nodup each nodup mem mem' differ
      rw [Except.ok.inj (holds.selected.symm.trans chosen), Except.ok.inj (holds'.selected.symm.trans chosen')] at apart
      exact apart same
    · obtain ⟨slot, -, holds⟩ := forall₂_right each.flip a mem
      exact unseen _ holds.previewed
  · intro fine
    have each : ∀ a ∈ proposed, ∃ slot, SlotOf sensitive db e ids now a slot := by
      intro a mem
      by_contra missing
      cases selected : selectBolaBinding sensitive db (.int e) (.int a.bindingId) with
      | error fault => exact fine (.inl ⟨a, mem, fun b same => by rw [selected] at same; cases same⟩)
      | ok b =>
          refine fine (.inr (.inr ⟨a, mem, fun p previewed => missing ⟨⟨b, p⟩, selected, previewed⟩⟩))
    obtain ⟨slots, each⟩ := exists_forall₂ each
    refine ⟨slots, each, nodup_of_apart each distinct fun a mem a' mem' differ slot slot' holds holds' same => ?_⟩
    exact fine (.inr (.inl ⟨a, mem, a', mem', differ, _, _, holds.selected, holds'.selected, same⟩))

/-- **The multi-binding preview is the slot-by-slot one**: it returns just the slots of accepted
arguments, each its own selection and preview, and it raises just where the arguments are not
accepted or something fails. -/
theorem binding_matrix_slotwise (db : Db F) (endpointId : Arg) (assignments : Option (Source AssignmentArg))
    (testIdentityIds : Option (Source Arg)) (evaluationTime : Option Stamp) :
    (∀ m, previewBolaBindingMatrix sensitive db endpointId assignments testIdentityIds evaluationTime = .ok m ↔
      ∃ proposed now, Accepted db endpointId assignments testIdentityIds evaluationTime m.endpointId proposed
          m.testIdentityIds now ∧ m.evaluationTime = .aware now ∧
        List.Forall₂ (SlotOf sensitive db m.endpointId m.testIdentityIds now) proposed m.slots ∧
        (m.slots.map fun slot => slot.binding.slot).Nodup) ∧
    (∀ m, previewBolaBindingMatrix sensitive db endpointId assignments testIdentityIds evaluationTime = .ok m →
      (m.slots.map fun slot => slot.binding.bindingId).Nodup ∧
        (m.slots.map fun slot => slot.preview.facts.length).sum ≤ maxBolaMatrixFacts) ∧
    ((∃ fault, previewBolaBindingMatrix sensitive db endpointId assignments testIdentityIds evaluationTime = .error fault) ↔
      (∀ e proposed ids now, ¬ Accepted db endpointId assignments testIdentityIds evaluationTime e proposed ids now) ∨
      ∃ e proposed ids now, Accepted db endpointId assignments testIdentityIds evaluationTime e proposed ids now ∧
        Fails sensitive db e proposed ids now) := by
  refine ⟨fun m => previewBolaBindingMatrix_ok sensitive, fun m done => ?_, ?_⟩
  · obtain ⟨proposed, now, accepted, -, each, -⟩ := (previewBolaBindingMatrix_ok sensitive).1 done
    rw [slots_bindings sensitive each, slots_cells sensitive each]
    exact ⟨accepted.distinct, accepted.cells⟩
  · constructor
    · rintro ⟨fault, raised⟩
      by_contra fine
      obtain ⟨accepted, unfailing⟩ := not_or.1 fine
      push Not at accepted
      obtain ⟨e, proposed, ids, now, accepted⟩ := accepted
      have distinct : proposed.Nodup := accepted.distinct.of_map
      obtain ⟨slots, each, nodup⟩ := (slots_iff sensitive distinct).2 fun fails =>
        unfailing ⟨e, proposed, ids, now, accepted, fails⟩
      have done := (previewBolaBindingMatrix_ok sensitive (m := ⟨e, .aware now, ids, slots⟩)).2
        ⟨proposed, now, accepted, rfl, each, nodup⟩
      cases raised.symm.trans done
    · intro bad
      cases done : previewBolaBindingMatrix sensitive db endpointId assignments testIdentityIds evaluationTime with
      | error fault => exact ⟨fault, rfl⟩
      | ok m =>
          exfalso
          obtain ⟨proposed, now, accepted, -, each, nodup⟩ := (previewBolaBindingMatrix_ok sensitive).1 done
          rcases bad with none_ | ⟨e, proposed', ids, now', accepted', fails⟩
          · exact none_ _ _ _ _ accepted
          · obtain ⟨rfl, rfl, rfl, rfl⟩ := accepted.unique accepted'
            exact (slots_iff sensitive accepted.distinct.of_map).1 ⟨m.slots, each, nodup⟩ fails

end Selection

/-- Two slots of one endpoint, and an identity that owns the resource. -/
private def twoSlots : Db Nat where
  clean := true
  resource _ := some ⟨1⟩
  identity _ := some ⟨1, "bearer".toList, true⟩
  endpoint _ := some ⟨1, "/a/{first}/{second}".toList, .null⟩
  binding i := some ⟨1, .path, if i = 1 then "first".toList else "second".toList, .confirmed⟩
  assertions := [⟨1, 1, 1, .owner, .allowed, .humanVerified, 100, .verified, 0, none, none⟩]

/-- One resource in both slots is previewed once and shown in both. -/
theorem binding_matrix_slotwise_shared : ∃ m, previewBolaBindingMatrix (fun _ => false) twoSlots (.int 1)
    (some (.of ([⟨1, 7⟩, ⟨2, 7⟩].map SlotAssignment.arg))) (some (.of [.int 1])) (some (.aware 5)) = .ok m ∧
    (m.slots.map fun slot => slot.preview.facts.length).sum ≤ maxBolaMatrixFacts := by
  have returns : (previewBolaBindingMatrix (fun _ => false) twoSlots (.int 1)
      (some (.of ([⟨1, 7⟩, ⟨2, 7⟩].map SlotAssignment.arg))) (some (.of [.int 1])) (some (.aware 5))).isOk = true := by
    decide +kernel
  cases done : previewBolaBindingMatrix (fun _ => false) twoSlots (.int 1)
      (some (.of ([⟨1, 7⟩, ⟨2, 7⟩].map SlotAssignment.arg))) (some (.of [.int 1])) (some (.aware 5)) with
  | error fault =>
      rw [done] at returns
      cases returns
  | ok m =>
      exact ⟨m, rfl, ((binding_matrix_slotwise (fun _ => false) twoSlots (.int 1) _ _ _).2.1 m done).2⟩

end ApiSecurityPlatform.Access
