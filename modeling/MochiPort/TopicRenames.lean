import MochiPort.RustText
import MochiPort.Runs
import MochiPort.Tables
import MochiPort.Tickets

namespace MochiPort

open List RustText Tickets

def truncateTopicName (title : String) : String :=
  let title := trim title
  let title := if title = "" then "未命名会话" else title
  String.ofList (title.toList.take 64)

/-- The echo that is expected of an edit of our own. -/
structure TelegramTopicNameSyncMarker where
  name : String
  token : Nat
  deriving DecidableEq

abbrev TopicMarkers := List TelegramTopicNameSyncMarker

namespace TopicMarkers

variable (markers : TopicMarkers)

def install (name : String) (token : Nat) : TopicMarkers := markers ++ [⟨name, token⟩]

def clear (token : Nat) : TopicMarkers := markers.eraseP fun marker => marker.token = token

/-- The markers without the first one of the name, if there is one. -/
def consume (name : String) : Option TopicMarkers :=
  if markers.any fun marker => marker.name = name then some (markers.eraseP fun marker => marker.name = name) else none

end TopicMarkers

inductive TelegramForumTopicEditOutcome where
  | changed
  | notModified
  | rejected
  | failed
  deriving DecidableEq

/-- What Telegram has done with an edit: it has not accepted it, or it has and owes its service message, or it has sent
that too. -/
inductive Acceptance where
  | unaccepted
  | due
  | told
  deriving DecidableEq

/-- One run of `run_telegram_topic_edit_with_marker`. -/
structure TopicEdit where
  name : String
  acceptance : Acceptance
  outcome : Option TelegramForumTopicEditOutcome
  -- whether the timer of its marker has fired
  expired : Bool
  deriving DecidableEq

namespace TopicEdit

/-- The call may still come to be accepted. -/
def flying (edit : TopicEdit) : Bool := edit.acceptance = .unaccepted && edit.outcome.isNone && !edit.expired

def due (edit : TopicEdit) : Bool := edit.acceptance = .due

end TopicEdit

/-- What the handler does about a service message, which is that of an edit of ours or of a user's rename: it takes a
marker, while an edit of ours of that name is owed a message or not, or it renames the thread. -/
inductive TopicNameAction where
  | consumed (own : Option Nat) (name : String) (owed : Bool)
  | threadRenamed (own : Option Nat) (name : String)
  deriving DecidableEq

/-- One bound topic: its markers, the edits by the tokens of their markers, how many of the timers are due, the names of
user renames whose messages are under way, and what the handler has done. -/
structure TopicRenames where
  markers : TopicMarkers
  nextToken : Nat
  edits : Table Nat TopicEdit
  passed : Nat
  renames : List String
  actions : List TopicNameAction

inductive TopicRenameStep where
  | edit (title : String)
  | accept (token : Nat)
  | respond (token : Nat) (outcome : TelegramForumTopicEditOutcome)
  | userRenames (name : String)
  -- a service message arrives; `current` says whether no later name update has begun when the name is recorded
  | ownMessage (token : Nat) (current : Bool)
  | userMessage (index : Nat) (current : Bool)
  -- the time to live of the next marker is over
  | pass
  | expire (token : Nat)

namespace TopicRenames

variable (s : TopicRenames)

def start : TopicRenames := ⟨[], 0, ∅, 0, [], []⟩

def setEdit (token : Nat) (edit : TopicEdit) : TopicRenames := { s with edits := s.edits.insert token edit }

/-- Telegram owes the message of an edit that was accepted with this name. -/
def owes (name : String) : Bool := s.edits.entries.any fun entry => entry.2.due && trim entry.2.name = name

def handleForumTopicServiceMessage (own : Option Nat) (carried : String) (current : Bool) : TopicRenames :=
  let name := trim carried
  if name = "" then s
  else
    match s.markers.consume name with
    | some markers => { s with markers := markers, actions := s.actions ++ [.consumed own name (s.owes name)] }
    | none =>
      if current then { s with actions := s.actions ++ [.threadRenamed own (truncateTopicName name)] } else s

/-- An edit is accepted while its call runs, or after it has failed, but never so late that its message would come after
the time to live of its marker. -/
def step (s : TopicRenames) : TopicRenameStep → Option TopicRenames
  | .edit title =>
    let name := truncateTopicName title
    some { s with
      markers := s.markers.install name s.nextToken
      nextToken := s.nextToken + 1
      edits := s.edits.insert s.nextToken ⟨name, .unaccepted, none, false⟩ }
  | .accept token =>
    (s.edits.lookup token).bind fun edit =>
      if edit.acceptance = .unaccepted ∧ s.passed ≤ token ∧ (edit.outcome = none ∨ edit.outcome = some .failed) then
        some (s.setEdit token { edit with acceptance := .due })
      else none
  | .respond token outcome =>
    (s.edits.lookup token).bind fun edit =>
      if edit.outcome = none ∧ (outcome = .changed → edit.acceptance ≠ .unaccepted) ∧
          (outcome = .notModified ∨ outcome = .rejected → edit.acceptance = .unaccepted) then
        let s := s.setEdit token { edit with outcome := some outcome }
        if outcome = .changed then some s else some { s with markers := s.markers.clear token }
      else none
  | .userRenames name => some { s with renames := s.renames ++ [trim name] }
  | .ownMessage token current =>
    (s.edits.lookup token).bind fun edit =>
      if edit.acceptance = .due then
        some ((s.handleForumTopicServiceMessage (some token) (trim edit.name) current).setEdit token
          { edit with acceptance := .told })
      else none
  | .userMessage index current =>
    (s.renames[index]?).bind fun name =>
      some { s.handleForumTopicServiceMessage none name current with renames := s.renames.eraseIdx index }
  | .pass =>
    (s.edits.lookup s.passed).bind fun edit =>
      if edit.acceptance = .due then none else some { s with passed := s.passed + 1 }
  | .expire token =>
    (s.edits.lookup token).bind fun edit =>
      if token < s.passed ∧ edit.expired = false then
        some { s.setEdit token { edit with expired := true } with markers := s.markers.clear token }
      else none

/-- No message of our own renames the thread, and a user's takes no marker unless one of ours of that name is under way. -/
def Quiet : Prop :=
  ∀ action ∈ s.actions, match action with
    | .threadRenamed own _ => own = none
    | .consumed own _ owed => own = none → owed = true

/-- What has to be so for the echoes to be told from renames. An accepted name has no blanks around it; a failed call is
not accepted later, and if it was before, its marker is gone; a message of our own does not find the marker of an edit
that is not accepted yet first; and a user's message comes while no edit of its name is under way. -/
def Tellable : TopicRenameStep → Prop
  | .accept token => ∀ edit, s.edits.lookup token = some edit → trim edit.name = edit.name ∧ edit.outcome = none
  | .respond token outcome =>
    ∀ edit, s.edits.lookup token = some edit → outcome = .failed → edit.acceptance ≠ .unaccepted →
      ∀ marker ∈ s.markers, marker.token ≠ token
  | .ownMessage token _ =>
    ∀ edit, s.edits.lookup token = some edit →
      ∀ marker, s.markers.find? (fun marker => marker.name = edit.name) = some marker →
        ∀ other, s.edits.lookup marker.token = some other → other.flying = false
  | .userMessage index _ =>
    ∀ name, s.renames[index]? = some name →
      ∀ token edit, s.edits.lookup token = some edit → edit.name = trim name →
        edit.flying = false ∧ edit.due = false
  | _ => True

instance : DecidablePred s.Tellable
  | .edit _ => .isTrue trivial
  | .accept token =>
    inferInstanceAs (Decidable (∀ edit ∈ s.edits.lookup token, trim edit.name = edit.name ∧ edit.outcome = none))
  | .respond token outcome =>
    inferInstanceAs (Decidable (∀ edit ∈ s.edits.lookup token, outcome = .failed → edit.acceptance ≠ .unaccepted →
      ∀ marker ∈ s.markers, marker.token ≠ token))
  | .userRenames _ => .isTrue trivial
  | .ownMessage token _ =>
    inferInstanceAs (Decidable (∀ edit ∈ s.edits.lookup token,
      ∀ marker ∈ s.markers.find? (fun marker => marker.name = edit.name),
        ∀ other ∈ s.edits.lookup marker.token, other.flying = false))
  | .userMessage index _ =>
    decidable_of_iff (∀ name ∈ s.renames[index]?, ∀ entry ∈ s.edits.entries, entry.2.name = trim name →
      entry.2.flying = false ∧ entry.2.due = false)
      ⟨fun h name hname token edit hedit => h name hname ⟨token, edit⟩ (Table.lookup_eq_some_iff.mp hedit),
        fun h name hname entry hentry => h name hname entry.1 entry.2 (Table.lookup_eq_some_iff.mpr hentry)⟩
  | .pass => .isTrue trivial
  | .expire _ => .isTrue trivial

end TopicRenames

namespace TopicMarkers

variable {markers : TopicMarkers}

/-- Tokens grow, so none is installed twice. -/
def Ordered (markers : TopicMarkers) : Prop := List.Pairwise (fun a b => a.token < b.token) markers

theorem mem_clear (h : markers.Ordered) {token : Nat} {marker : TelegramTopicNameSyncMarker} :
    marker ∈ markers.clear token ↔ marker ∈ markers ∧ marker.token ≠ token := by
  unfold clear
  induction markers with
  | nil => exact iff_of_false (fun h => by cases h) (fun h => by cases h.1)
  | cons first markers ih =>
    obtain ⟨hfirst, hrest⟩ := pairwise_cons.mp h
    by_cases htoken : first.token = token
    · rw [eraseP_cons_of_pos (by rw [htoken]; exact decide_eq_true rfl), mem_cons]
      constructor
      · intro hmem
        have hlt := hfirst marker hmem
        exact ⟨.inr hmem, by omega⟩
      · intro hmem
        obtain ⟨hmem, hne⟩ := hmem
        rcases hmem with rfl | hmem
        · exact absurd htoken hne
        · exact hmem
    · rw [eraseP_cons_of_neg (by rw [decide_eq_true_eq]; exact htoken), mem_cons, mem_cons, ih hrest]
      constructor
      · intro hmem
        rcases hmem with rfl | ⟨hmem, hne⟩
        · exact ⟨.inl rfl, htoken⟩
        · exact ⟨.inr hmem, hne⟩
      · intro hmem
        obtain ⟨hmem, hne⟩ := hmem
        rcases hmem with rfl | hmem
        · exact .inl rfl
        · exact .inr ⟨hmem, hne⟩

theorem Ordered.clear (h : markers.Ordered) (token : Nat) : Ordered (markers.clear token) :=
  h.sublist eraseP_sublist

theorem consume_some (h : markers.Ordered) {name : String} {rest : TopicMarkers}
    (hconsume : markers.consume name = some rest) :
    ∃ first, markers.find? (fun marker => marker.name = name) = some first ∧ first ∈ markers ∧ first.name = name ∧
      (∀ marker, marker ∈ rest ↔ marker ∈ markers ∧ marker ≠ first) ∧
      (∀ marker ∈ markers, marker.name = name → first.token ≤ marker.token) ∧ rest.Ordered := by
  unfold consume at hconsume
  split at hconsume
  next hany =>
    cases hconsume
    have hordered : Ordered (markers.eraseP fun marker => marker.name = name) := h.sublist eraseP_sublist
    rw [any_eq_true] at hany
    obtain ⟨some, hsome, hname⟩ := hany
    obtain ⟨first, before, after, hbefore, hfirst, hsplit, herase⟩ :=
      @exists_of_eraseP _ (fun marker => decide (marker.name = name)) markers some hsome hname
    have hnone : ∀ marker ∈ before, marker.name ≠ name := by
      intro marker hmarker heq
      exact hbefore marker hmarker (decide_eq_true heq)
    rw [decide_eq_true_eq] at hfirst
    unfold Ordered at h
    rw [hsplit, pairwise_append, pairwise_cons] at h
    obtain ⟨_, ⟨hafter, _⟩, hcross⟩ := h
    refine ⟨first, ?_, ?_, hfirst, ?_, ?_, hordered⟩
    · rw [hsplit, List.find?_append, List.find?_eq_none.mpr fun marker hmarker => by
        rw [decide_eq_true_eq]; exact hnone marker hmarker]
      rw [Option.none_or, List.find?_cons, decide_eq_true hfirst]
    · rw [hsplit]
      exact mem_append_right _ mem_cons_self
    · intro marker
      rw [herase, hsplit, mem_append, mem_append, mem_cons]
      constructor
      · intro hmem
        rcases hmem with hmem | hmem
        · refine ⟨.inl hmem, ?_⟩
          intro heq
          exact hnone marker hmem (heq ▸ hfirst)
        · refine ⟨.inr (.inr hmem), ?_⟩
          intro heq
          have hlt := hafter marker hmem
          rw [heq] at hlt
          omega
      · intro hmem
        obtain ⟨hmem, hne⟩ := hmem
        rcases hmem with hmem | heq | hmem
        · exact .inl hmem
        · exact absurd heq hne
        · exact .inr hmem
    · intro marker hmarker hmarkerName
      rw [hsplit, mem_append, mem_cons] at hmarker
      rcases hmarker with hmem | heq | hmem
      · exact absurd hmarkerName (hnone marker hmem)
      · rw [heq]
      · exact (hafter marker hmem).le
  next => cases hconsume

theorem consume_none {name : String} : markers.consume name = none ↔ ∀ marker ∈ markers, marker.name ≠ name := by
  unfold consume
  split
  next hany =>
    rw [any_eq_true] at hany
    obtain ⟨marker, hmarker, hname⟩ := hany
    rw [decide_eq_true_eq] at hname
    exact iff_of_false (fun h => by cases h) (fun h => h marker hmarker hname)
  next hnone =>
    refine iff_of_true rfl ?_
    intro marker hmarker hname
    exact hnone (any_eq_true.mpr ⟨marker, hmarker, decide_eq_true hname⟩)

end TopicMarkers

namespace TopicRenames

variable (s : TopicRenames)

/-- The tokens of the markers of a name whose edits are not waiting to be accepted. -/
def tickets (name : String) : Finset Nat :=
  ((s.markers.filter fun marker => marker.name = name).map (·.token)).toFinset.filter fun token =>
    ((s.edits.lookup token).any TopicEdit.flying) = false

/-- The accepted edits of a name whose messages are under way. -/
def debts (name : String) : Finset Nat :=
  ((s.edits.entries.filter fun entry => entry.2.due && entry.2.name = name).map Sigma.fst).toFinset

variable {s}

variable {name : String} {token : Nat}

theorem mem_tickets :
    token ∈ s.tickets name ↔ ⟨name, token⟩ ∈ s.markers ∧
      ∀ edit, s.edits.lookup token = some edit → edit.flying = false := by
  unfold tickets
  rw [Finset.mem_filter, mem_toFinset, mem_map]
  refine and_congr ?_ ?_
  · constructor
    · intro h
      obtain ⟨marker, hmarker, rfl⟩ := h
      rw [mem_filter, decide_eq_true_eq] at hmarker
      rw [← hmarker.2]
      exact hmarker.1
    · intro h
      exact ⟨⟨name, token⟩, mem_filter.mpr ⟨h, decide_eq_true rfl⟩, rfl⟩
  · cases s.edits.lookup token with
    | none => exact iff_of_true rfl fun edit h => by cases h
    | some edit =>
      exact ⟨fun h other hother => Option.some.inj hother ▸ h, fun h => h edit rfl⟩

theorem mem_debts :
    token ∈ s.debts name ↔ ∃ edit, s.edits.lookup token = some edit ∧ edit.due = true ∧ edit.name = name := by
  unfold debts
  rw [mem_toFinset, mem_map]
  constructor
  · intro h
    obtain ⟨⟨key, edit⟩, hentry, rfl⟩ := h
    rw [mem_filter, Bool.and_eq_true, decide_eq_true_eq] at hentry
    exact ⟨edit, Table.lookup_eq_some_iff.mpr hentry.1, hentry.2.1, hentry.2.2⟩
  · intro h
    obtain ⟨edit, hlookup, hdue, hname⟩ := h
    refine ⟨⟨token, edit⟩, ?_, rfl⟩
    rw [mem_filter, Bool.and_eq_true, decide_eq_true_eq]
    exact ⟨Table.lookup_eq_some_iff.mp hlookup, hdue, hname⟩

/-- What every reached state keeps: the markers of a name are those of the edits that may still be accepted, and as many
as there are messages of that name under way. -/
structure Tracked (s : TopicRenames) : Prop where
  below : ∀ token edit, s.edits.lookup token = some edit → token < s.nextToken
  named : ∀ token edit, s.edits.lookup token = some edit → edit.name ≠ ""
  ordered : s.markers.Ordered
  known : ∀ marker ∈ s.markers, ∃ edit, s.edits.lookup marker.token = some edit ∧ edit.name = marker.name
  flying : ∀ token edit, s.edits.lookup token = some edit → edit.flying = true → ⟨edit.name, token⟩ ∈ s.markers
  trimmed : ∀ token edit, s.edits.lookup token = some edit → edit.due = true → trim edit.name = edit.name
  late : ∀ token edit, s.edits.lookup token = some edit → edit.due = true → s.passed ≤ token
  expired : ∀ token edit, s.edits.lookup token = some edit → edit.expired = true → token < s.passed
  covered : ∀ name, Covers (s.tickets name) (s.debts name)
  quiet : s.Quiet

theorem start_tracked : start.Tracked where
  below token edit h := by cases h
  named token edit h := by cases h
  ordered := List.Pairwise.nil
  known marker h := by cases h
  flying token edit h := by cases h
  trimmed token edit h := by cases h
  late token edit h := by cases h
  expired token edit h := by cases h
  covered _ := covers_empty
  quiet action h := by cases h

theorem truncateTopicName_ne (title : String) : truncateTopicName title ≠ "" := by
  have htitle : (if trim title = "" then "未命名会话" else trim title) ≠ "" := by
    split
    next => decide
    next hne => exact hne
  intro h
  have htake := congrArg String.toList h
  unfold truncateTopicName at htake
  rw [String.toList_ofList, String.toList_empty, take_eq_nil_iff] at htake
  rcases htake with hzero | hnil
  · cases hzero
  · exact htitle (String.toList_eq_nil_iff.mp hnil)

theorem lookup_setEdit (token other : Nat) (edit : TopicEdit) :
    (s.edits.insert token edit).lookup other = if other = token then some edit else s.edits.lookup other :=
  Table.lookup_insert_eq _ _ _ _

theorem Tracked.edit (hs : s.Tracked) {title : String} (htitle : title ≠ "") :
    Tracked { s with
      markers := s.markers.install title s.nextToken
      nextToken := s.nextToken + 1
      edits := s.edits.insert s.nextToken ⟨title, .unaccepted, none, false⟩ } := by
  have hold : ∀ token edit, s.edits.lookup token = some edit →
      (s.edits.insert s.nextToken ⟨title, .unaccepted, none, false⟩).lookup token = some edit := by
    intro token edit h
    have hlt := hs.below token edit h
    rw [lookup_setEdit, if_neg (by omega)]
    exact h
  have hnew : ∀ token edit, (s.edits.insert s.nextToken
      ⟨title, .unaccepted, none, false⟩).lookup token = some edit →
      edit.flying = false → s.edits.lookup token = some edit := by
    intro token edit h hflying
    rw [lookup_setEdit] at h
    split at h
    next =>
      cases h
      cases hflying
    next => exact h
  have hdue : ∀ edit : TopicEdit, edit.due = true → edit.flying = false := by
    intro edit h
    unfold TopicEdit.flying
    rw [of_decide_eq_true h]
    rfl
  have hfresh : ∀ marker ∈ s.markers, marker.token < s.nextToken := by
    intro marker hmarker
    obtain ⟨edit, hlookup, _⟩ := hs.known marker hmarker
    exact hs.below marker.token edit hlookup
  constructor
  case below =>
    intro token edit h
    dsimp only at h ⊢
    rw [lookup_setEdit] at h
    split at h
    next => omega
    next =>
      have hlt := hs.below token edit h
      omega
  case named =>
    intro token edit h
    rw [lookup_setEdit] at h
    split at h
    next =>
      cases h
      exact htitle
    next => exact hs.named token edit h
  case ordered =>
    refine pairwise_append.mpr ⟨hs.ordered, pairwise_singleton _ _, ?_⟩
    intro marker hmarker other hother
    rw [mem_singleton.mp hother]
    exact hfresh marker hmarker
  case known =>
    intro marker hmarker
    rcases mem_append.mp hmarker with hmarker | hmarker
    · obtain ⟨edit, hlookup, hname⟩ := hs.known marker hmarker
      exact ⟨edit, hold marker.token edit hlookup, hname⟩
    · rw [mem_singleton.mp hmarker]
      exact ⟨_, AList.lookup_insert _, rfl⟩
  case flying =>
    intro token edit h hflying
    rw [lookup_setEdit] at h
    split at h
    next heq =>
      cases h
      rw [heq]
      exact mem_append_right _ (mem_singleton_self _)
    next => exact mem_append_left _ (hs.flying token edit h hflying)
  case trimmed =>
    intro token edit h hdueEdit
    exact hs.trimmed token edit (hnew token edit h (hdue edit hdueEdit)) hdueEdit
  case late =>
    intro token edit h hdueEdit
    exact hs.late token edit (hnew token edit h (hdue edit hdueEdit)) hdueEdit
  case expired =>
    intro token edit h hexpired
    rw [lookup_setEdit] at h
    split at h
    next =>
      cases h
      cases hexpired
    next => exact hs.expired token edit h hexpired
  case covered =>
    intro name
    have htickets : tickets { s with
        markers := s.markers.install title s.nextToken
        nextToken := s.nextToken + 1
        edits := s.edits.insert s.nextToken ⟨title, .unaccepted, none, false⟩ } name =
        s.tickets name := by
      ext token
      rw [mem_tickets, mem_tickets]
      constructor
      · intro h
        obtain ⟨hmarker, hflying⟩ := h
        rcases mem_append.mp hmarker with hmarker | hmarker
        · refine ⟨hmarker, ?_⟩
          intro edit hlookup
          exact hflying edit (hold token edit hlookup)
        · have htoken := congrArg TelegramTopicNameSyncMarker.token (mem_singleton.mp hmarker)
          have hbad := hflying _ ((lookup_setEdit _ token _).trans (if_pos htoken))
          cases hbad
      · intro h
        obtain ⟨hmarker, hflying⟩ := h
        refine ⟨mem_append_left _ hmarker, ?_⟩
        intro edit hlookup
        have hlt := hfresh _ hmarker
        dsimp only at hlookup hlt
        rw [lookup_setEdit, if_neg (by omega)] at hlookup
        exact hflying edit hlookup
    have hdebts : debts { s with
        markers := s.markers.install title s.nextToken
        nextToken := s.nextToken + 1
        edits := s.edits.insert s.nextToken ⟨title, .unaccepted, none, false⟩ } name =
        s.debts name := by
      ext token
      rw [mem_debts, mem_debts]
      constructor
      · intro h
        obtain ⟨edit, hlookup, hdueEdit, hname⟩ := h
        exact ⟨edit, hnew token edit hlookup (hdue edit hdueEdit), hdueEdit, hname⟩
      · intro h
        obtain ⟨edit, hlookup, hdueEdit, hname⟩ := h
        exact ⟨edit, hold token edit hlookup, hdueEdit, hname⟩
    rw [htickets, hdebts]
    exact hs.covered name
  case quiet => exact hs.quiet

variable {actions : List TopicNameAction} {markers : TopicMarkers}

theorem Tracked.change (hs : s.Tracked) {old new : TopicEdit} (hold : s.edits.lookup token = some old)
    (hname : new.name = old.name) (hordered : markers.Ordered) (hsub : ∀ marker ∈ markers, marker ∈ s.markers)
    (hself : new.flying = true → ⟨new.name, token⟩ ∈ markers)
    (hothers : ∀ other edit, other ≠ token → s.edits.lookup other = some edit → edit.flying = true →
      ⟨edit.name, other⟩ ∈ markers) (htrimmed : new.due = true → trim new.name = new.name)
    (hlate : new.due = true → s.passed ≤ token) (hexpired : new.expired = true → token < s.passed) (hcovered : ∀ name,
      Covers (tickets { s with markers := markers, edits := s.edits.insert token new, actions := actions } name)
        (debts { s with markers := markers, edits := s.edits.insert token new, actions := actions } name))
    (hquiet : Quiet { s with markers := markers, edits := s.edits.insert token new, actions := actions }) :
    Tracked { s with markers := markers, edits := s.edits.insert token new, actions := actions } := by
  have hcases : ∀ other edit, (s.edits.insert token new).lookup other = some edit →
      other = token ∧ edit = new ∨ other ≠ token ∧ s.edits.lookup other = some edit :=
    fun _ _ h => Table.of_lookup_insert h
  constructor
  case below =>
    intro other edit h
    rcases hcases other edit h with ⟨rfl, _⟩ | ⟨_, h⟩
    · exact hs.below other old hold
    · exact hs.below other edit h
  case named =>
    intro other edit h
    rcases hcases other edit h with ⟨rfl, rfl⟩ | ⟨_, h⟩
    · rw [hname]
      exact hs.named other old hold
    · exact hs.named other edit h
  case ordered => exact hordered
  case known =>
    intro marker hmarker
    obtain ⟨edit, hlookup, heq⟩ := hs.known marker (hsub marker hmarker)
    rw [lookup_setEdit]
    by_cases htoken : marker.token = token
    · rw [htoken, hold] at hlookup
      rw [if_pos htoken, ← heq, ← Option.some.inj hlookup]
      exact ⟨new, rfl, hname⟩
    · rw [if_neg htoken]
      exact ⟨edit, hlookup, heq⟩
  case flying =>
    intro other edit h hflying
    rcases hcases other edit h with ⟨rfl, rfl⟩ | ⟨hne, h⟩
    · exact hself hflying
    · exact hothers other edit hne h hflying
  case trimmed =>
    intro other edit h hdue
    rcases hcases other edit h with ⟨_, rfl⟩ | ⟨_, h⟩
    · exact htrimmed hdue
    · exact hs.trimmed other edit h hdue
  case late =>
    intro other edit h hdue
    rcases hcases other edit h with ⟨rfl, rfl⟩ | ⟨_, h⟩
    · exact hlate hdue
    · exact hs.late other edit h hdue
  case expired =>
    intro other edit h hover
    rcases hcases other edit h with ⟨rfl, rfl⟩ | ⟨_, h⟩
    · exact hexpired hover
    · exact hs.expired other edit h hover
  case covered => exact hcovered
  case quiet => exact hquiet

theorem mem_tickets_change {new : TopicEdit} {other : Nat} :
    other ∈ tickets { s with markers := markers, edits := s.edits.insert token new, actions := actions } name ↔
      ⟨name, other⟩ ∈ markers ∧ (other = token → new.flying = false) ∧
        (other ≠ token → ∀ edit, s.edits.lookup other = some edit → edit.flying = false) := by
  rw [mem_tickets]
  refine and_congr_right fun _ => ?_
  rw [lookup_setEdit]
  by_cases heq : other = token
  · rw [if_pos heq]
    constructor
    · intro h
      exact ⟨fun _ => h new rfl, fun hne => absurd heq hne⟩
    · intro h edit hedit
      rw [← Option.some.inj hedit]
      exact h.1 heq
  · rw [if_neg heq]
    exact ⟨fun h => ⟨fun hbad => absurd hbad heq, fun _ => h⟩, fun h => h.2 heq⟩

theorem mem_debts_change {new : TopicEdit} {other : Nat} :
    other ∈ debts { s with markers := markers, edits := s.edits.insert token new, actions := actions } name ↔
      (other = token ∧ new.due = true ∧ new.name = name) ∨ (other ≠ token ∧ other ∈ s.debts name) := by
  rw [mem_debts, mem_debts]
  rw [lookup_setEdit]
  by_cases heq : other = token
  · rw [if_pos heq]
    constructor
    · intro h
      obtain ⟨edit, hedit, hdue⟩ := h
      rw [← Option.some.inj hedit] at hdue
      exact .inl ⟨heq, hdue⟩
    · intro h
      rcases h with ⟨_, hdue⟩ | ⟨hne, _⟩
      · exact ⟨new, rfl, hdue⟩
      · exact absurd heq hne
  · rw [if_neg heq]
    exact ⟨fun h => .inr ⟨heq, h⟩, fun h => (h.resolve_left fun hbad => heq hbad.1).2⟩

theorem Tracked.due_notMem (hs : s.Tracked) (hpassed : token < s.passed) (name : String) : token ∉ s.tickets name := by
  refine (hs.covered name).notMem_of_lt ?_
  intro debt hdebt
  obtain ⟨edit, hlookup, hdue, _⟩ := mem_debts.mp hdebt
  have hle := hs.late debt edit hlookup hdue
  omega

theorem Tracked.drop (hs : s.Tracked) {old new : TopicEdit} (hold : s.edits.lookup token = some old)
    (hname : new.name = old.name) (hflying : new.flying = false) (hdue : new.due = old.due)
    (hexpired : new.expired = true → token < s.passed) (hticket : ∀ name, token ∉ s.tickets name) :
    Tracked { s with markers := s.markers.clear token, edits := s.edits.insert token new } := by
  refine hs.change hold hname (hs.ordered.clear token) ?_ ?_ ?_ ?_ ?_ hexpired ?_ hs.quiet
  · intro marker hmarker
    exact ((TopicMarkers.mem_clear hs.ordered).mp hmarker).1
  · intro hself
    rw [hflying] at hself
    cases hself
  · intro other edit hne hlookup hother
    exact (TopicMarkers.mem_clear hs.ordered).mpr ⟨hs.flying other edit hlookup hother, hne⟩
  · intro h
    rw [hname]
    exact hs.trimmed token old hold (hdue ▸ h)
  · intro h
    exact hs.late token old hold (hdue ▸ h)
  · intro name
    have htickets : tickets { s with markers := s.markers.clear token, edits := s.edits.insert token new } name =
        s.tickets name := by
      ext other
      rw [mem_tickets_change, TopicMarkers.mem_clear hs.ordered]
      constructor
      · intro h
        obtain ⟨⟨hmarker, hne⟩, _, hothers⟩ := h
        exact mem_tickets.mpr ⟨hmarker, hothers hne⟩
      · intro h
        have hne : other ≠ token := by
          intro heq
          rw [heq] at h
          exact hticket name h
        obtain ⟨hmarker, hothers⟩ := mem_tickets.mp h
        exact ⟨⟨hmarker, hne⟩, fun heq => absurd heq hne, fun _ => hothers⟩
    have hdebts : debts { s with markers := s.markers.clear token, edits := s.edits.insert token new } name =
        s.debts name := by
      ext other
      rw [mem_debts_change]
      constructor
      · intro h
        rcases h with ⟨rfl, hnew, hnewName⟩ | ⟨_, h⟩
        · exact mem_debts.mpr ⟨old, hold, hdue ▸ hnew, hname ▸ hnewName⟩
        · exact h
      · intro h
        by_cases heq : other = token
        · obtain ⟨edit, hlookup, hedit, heditName⟩ := mem_debts.mp h
          rw [heq, hold] at hlookup
          rw [← Option.some.inj hlookup] at hedit heditName
          exact .inl ⟨heq, hdue.trans hedit, hname.trans heditName⟩
        · exact .inr ⟨heq, h⟩
    rw [htickets, hdebts]
    exact hs.covered name

variable {edit : TopicEdit}

theorem flying_notMem (h : s.edits.lookup token = some edit) (hflying : edit.flying = true) (name : String) :
    token ∉ s.tickets name := by
  intro hmem
  have hnot := (mem_tickets.mp hmem).2 edit h
  rw [hflying] at hnot
  cases hnot

section

variable (hs : s.Tracked)
include hs

section

variable (hedit : s.edits.lookup token = some edit)
include hedit

theorem Tracked.accept (hflying : edit.flying = true)
    (htrimmed : trim edit.name = edit.name) (hpassed : s.passed ≤ token) :
    Tracked (s.setEdit token { edit with acceptance := .due }) := by
  have hmarker := hs.flying token edit hedit hflying
  have hunowed : edit.due = false := by
    unfold TopicEdit.flying at hflying
    rw [Bool.and_eq_true, Bool.and_eq_true, decide_eq_true_eq] at hflying
    unfold TopicEdit.due
    rw [hflying.1.1]
    rfl
  have hname : ∀ name, ⟨name, token⟩ ∈ s.markers → name = edit.name := by
    intro name hmem
    obtain ⟨other, hlookup, heq⟩ := hs.known _ hmem
    rw [← Option.some.inj (hedit.symm.trans hlookup)] at heq
    exact heq.symm
  refine hs.change hedit rfl hs.ordered (fun _ h => h) ?_ ?_ (fun _ => htrimmed) (fun _ => hpassed) ?_ ?_ hs.quiet
  · intro hnew
    cases hnew
  · intro other otherEdit _ hlookup hother
    exact hs.flying other otherEdit hlookup hother
  · intro hexpired
    exact hs.expired token edit hedit hexpired
  · intro name
    have hticket : token ∉ s.tickets name := flying_notMem hedit hflying name
    have hdebt : token ∉ s.debts name := by
      intro hmem
      obtain ⟨other, hlookup, hdue, _⟩ := mem_debts.mp hmem
      rw [← Option.some.inj (hedit.symm.trans hlookup), hunowed] at hdue
      cases hdue
    by_cases hsame : name = edit.name
    · have htickets : tickets (s.setEdit token { edit with acceptance := .due }) name =
          insert token (s.tickets name) := by
        ext other
        rw [Finset.mem_insert]
        refine mem_tickets_change.trans ?_
        constructor
        · intro h
          by_cases heq : other = token
          · exact .inl heq
          · exact .inr (mem_tickets.mpr ⟨h.1, h.2.2 heq⟩)
        · intro h
          by_cases heq : other = token
          · rw [heq, hsame]
            exact ⟨hmarker, fun _ => rfl, fun hne => absurd rfl hne⟩
          · obtain ⟨hmem, hothers⟩ := mem_tickets.mp (h.resolve_left heq)
            exact ⟨hmem, fun hbad => absurd hbad heq, fun _ => hothers⟩
      have hdebts : debts (s.setEdit token { edit with acceptance := .due }) name = insert token (s.debts name) := by
        ext other
        rw [Finset.mem_insert]
        refine mem_debts_change.trans ?_
        constructor
        · intro h
          rcases h with ⟨heq, _⟩ | ⟨_, h⟩
          · exact .inl heq
          · exact .inr h
        · intro h
          by_cases heq : other = token
          · exact .inl ⟨heq, rfl, hsame.symm⟩
          · exact .inr ⟨heq, h.resolve_left heq⟩
      have hcovers := (hs.covered name).incur hticket hdebt
      rw [← htickets, ← hdebts] at hcovers
      exact hcovers
    · have htickets : tickets (s.setEdit token { edit with acceptance := .due }) name = s.tickets name := by
        ext other
        refine mem_tickets_change.trans ?_
        constructor
        · intro h
          have heq : other ≠ token := by
            intro heq
            rw [heq] at h
            exact hsame (hname name h.1)
          exact mem_tickets.mpr ⟨h.1, h.2.2 heq⟩
        · intro h
          obtain ⟨hmem, hothers⟩ := mem_tickets.mp h
          exact ⟨hmem, fun _ => rfl, fun _ => hothers⟩
      have hdebts : debts (s.setEdit token { edit with acceptance := .due }) name = s.debts name := by
        ext other
        refine mem_debts_change.trans ?_
        constructor
        · intro h
          rcases h with ⟨_, _, hbad⟩ | ⟨_, h⟩
          · exact absurd hbad.symm hsame
          · exact h
        · intro h
          refine .inr ⟨?_, h⟩
          intro heq
          rw [heq] at h
          exact hdebt h
      have hcovers := hs.covered name
      rw [← htickets, ← hdebts] at hcovers
      exact hcovers

theorem Tracked.ownMessage (hdue : edit.acceptance = .due)
    (hguard : ∀ marker, s.markers.find? (fun marker => marker.name = edit.name) = some marker →
      ∀ other, s.edits.lookup marker.token = some other → other.flying = false) (current : Bool) :
    Tracked ((s.handleForumTopicServiceMessage (some token) (trim edit.name) current).setEdit token
      { edit with acceptance := .told }) := by
  have howed : edit.due = true := decide_eq_true hdue
  have hname := hs.trimmed token edit hedit howed
  have hdebt : token ∈ s.debts edit.name := mem_debts.mpr ⟨edit, hedit, howed, rfl⟩
  obtain ⟨ticket, hticket⟩ := (hs.covered edit.name).nonempty hdebt
  have hmarked := (mem_tickets.mp hticket).1
  unfold handleForumTopicServiceMessage
  rw [hname]
  rw [hname, if_neg (hs.named token edit hedit)]
  cases hconsume : s.markers.consume edit.name with
  | none => exact absurd rfl (TopicMarkers.consume_none.mp hconsume _ hmarked)
  | some rest =>
    obtain ⟨first, hfind, hmem, hfirstName, hrest, hfirst, hordered⟩ := TopicMarkers.consume_some hs.ordered hconsume
    have hunflying := hguard first hfind
    have hfirstTicket : first.token ∈ s.tickets edit.name := by
      refine mem_tickets.mpr ⟨?_, hunflying⟩
      rw [← hfirstName]
      exact hmem
    refine hs.change hedit rfl hordered (fun marker hmarker => ((hrest marker).mp hmarker).1) ?_ ?_ ?_ ?_ ?_ ?_ ?_
    · intro hnew
      cases hnew
    · intro other otherEdit _ hlookup hflying
      refine (hrest _).mpr ⟨hs.flying other otherEdit hlookup hflying, ?_⟩
      intro heq
      have hnot := hunflying otherEdit (by rw [← heq]; exact hlookup)
      rw [hflying] at hnot
      cases hnot
    · intro hnew
      cases hnew
    · intro hnew
      cases hnew
    · intro hexpired
      exact hs.expired token edit hedit hexpired
    · intro name
      by_cases hsame : name = edit.name
      · have hcovers := (hs.covered name).pay (hsame ▸ hfirstTicket) (by
          intro other hother
          exact hfirst _ (mem_tickets.mp hother).1 hsame) (hsame ▸ hdebt)
        convert hcovers using 1
        · ext other
          rw [mem_tickets_change, hrest, Finset.mem_erase, mem_tickets]
          constructor
          · intro h
            obtain ⟨⟨hmarker, hne⟩, _, hothers⟩ := h
            refine ⟨?_, hmarker, ?_⟩
            · intro heq
              refine hne ?_
              rw [heq, hsame, ← hfirstName]
            · intro otherEdit hlookup
              by_cases heq : other = token
              · rw [heq] at hlookup
                rw [← Option.some.inj (hedit.symm.trans hlookup)]
                unfold TopicEdit.flying
                rw [hdue]
                rfl
              · exact hothers heq otherEdit hlookup
          · intro h
            obtain ⟨hne, hmarker, hothers⟩ := h
            refine ⟨⟨hmarker, ?_⟩, fun _ => rfl, fun _ => hothers⟩
            intro heq
            exact hne (congrArg TelegramTopicNameSyncMarker.token heq)
        · ext other
          rw [mem_debts_change, Finset.mem_erase]
          constructor
          · intro h
            rcases h with ⟨_, hbad, _⟩ | h
            · cases hbad
            · exact h
          · intro h
            exact .inr h
      · have hcovers := hs.covered name
        convert hcovers using 1
        · ext other
          rw [mem_tickets_change, hrest, mem_tickets]
          constructor
          · intro h
            obtain ⟨⟨hmarker, _⟩, _, hothers⟩ := h
            refine ⟨hmarker, ?_⟩
            intro otherEdit hlookup
            by_cases heq : other = token
            · rw [heq] at hlookup
              rw [← Option.some.inj (hedit.symm.trans hlookup)]
              unfold TopicEdit.flying
              rw [hdue]
              rfl
            · exact hothers heq otherEdit hlookup
          · intro h
            obtain ⟨hmarker, hothers⟩ := h
            refine ⟨⟨hmarker, ?_⟩, fun _ => rfl, fun _ => hothers⟩
            intro heq
            exact hsame ((congrArg TelegramTopicNameSyncMarker.name heq).trans hfirstName)
        · ext other
          rw [mem_debts_change]
          constructor
          · intro h
            rcases h with ⟨_, hbad, _⟩ | ⟨_, h⟩
            · cases hbad
            · exact h
          · intro h
            refine .inr ⟨?_, h⟩
            intro heq
            obtain ⟨otherEdit, hlookup, _, hotherName⟩ := mem_debts.mp h
            rw [heq] at hlookup
            rw [← Option.some.inj (hedit.symm.trans hlookup)] at hotherName
            exact hsame hotherName.symm
    · intro action haction
      rcases mem_append.mp haction with haction | haction
      · exact hs.quiet action haction
      · rw [mem_singleton.mp haction]
        intro hbad
        cases hbad

omit hedit in
theorem Tracked.userMessage (hguard : ∀ token edit, s.edits.lookup token = some edit → edit.name = trim name →
      edit.flying = false ∧ edit.due = false) (current : Bool) (renames : List String) :
    Tracked { s.handleForumTopicServiceMessage none name current with renames := renames } := by
  have hdebts : s.debts (trim name) = ∅ := by
    rw [Finset.eq_empty_iff_forall_notMem]
    intro token hmem
    obtain ⟨edit, hlookup, hdue, hname⟩ := mem_debts.mp hmem
    rw [(hguard token edit hlookup hname).2] at hdue
    cases hdue
  have hunmarked : s.markers.consume (trim name) = none := by
    rw [TopicMarkers.consume_none]
    intro marker hmarker hname
    obtain ⟨edit, hlookup, hedit⟩ := hs.known marker hmarker
    have hticket : marker.token ∈ s.tickets (trim name) := by
      refine mem_tickets.mpr ⟨?_, ?_⟩
      · rw [← hname]
        exact hmarker
      · intro other hother
        rw [← Option.some.inj (hlookup.symm.trans hother)]
        exact (hguard marker.token edit hlookup (hedit.trans hname)).1
    rw [(hs.covered _).eq_empty hdebts] at hticket
    exact absurd hticket (Finset.notMem_empty _)
  unfold handleForumTopicServiceMessage
  dsimp only
  split
  next => exact ⟨hs.below, hs.named, hs.ordered, hs.known, hs.flying, hs.trimmed, hs.late, hs.expired, hs.covered, hs.quiet⟩
  next =>
    rw [hunmarked]
    dsimp only
    split
    next =>
      refine ⟨hs.below, hs.named, hs.ordered, hs.known, hs.flying, hs.trimmed, hs.late, hs.expired, hs.covered, ?_⟩
      intro action haction
      rcases mem_append.mp haction with haction | haction
      · exact hs.quiet action haction
      · rw [mem_singleton.mp haction]
    next =>
      exact ⟨hs.below, hs.named, hs.ordered, hs.known, hs.flying, hs.trimmed, hs.late, hs.expired, hs.covered, hs.quiet⟩

theorem Tracked.respond {outcome : TelegramForumTopicEditOutcome} (hrunning : edit.outcome = none)
    (hrefused : outcome = .notModified ∨ outcome = .rejected → edit.acceptance = .unaccepted)
    (hchanged : outcome ≠ .changed)
    (hguard : outcome = .failed → edit.acceptance ≠ .unaccepted → ∀ marker ∈ s.markers, marker.token ≠ token) :
    Tracked { s with
      markers := s.markers.clear token
      edits := s.edits.insert token { edit with outcome := some outcome } } := by
  have hnew : TopicEdit.flying { edit with outcome := some outcome } = false := by
    unfold TopicEdit.flying
    rw [Option.isNone_some, Bool.and_false, Bool.false_and]
  refine hs.drop hedit rfl hnew rfl (fun h => hs.expired token edit hedit h) ?_
  intro name
  by_cases haccepted : edit.acceptance = .unaccepted
  · by_cases hexpired : edit.expired = true
    · exact hs.due_notMem (hs.expired token edit hedit hexpired) name
    · refine flying_notMem hedit ?_ name
      rw [Bool.not_eq_true] at hexpired
      unfold TopicEdit.flying
      rw [haccepted, hrunning, hexpired]
      rfl
  · have hfailed : outcome = .failed := by
      cases outcome with
      | changed => exact absurd rfl hchanged
      | notModified => exact absurd (hrefused (.inl rfl)) haccepted
      | rejected => exact absurd (hrefused (.inr rfl)) haccepted
      | failed => rfl
    intro hmem
    exact hguard hfailed haccepted _ (mem_tickets.mp hmem).1 rfl

theorem Tracked.confirm (haccepted : edit.acceptance ≠ .unaccepted) :
    Tracked (s.setEdit token { edit with outcome := some .changed }) := by
  have hflying : ∀ outcome, TopicEdit.flying { edit with outcome := outcome } = false := by
    intro outcome
    unfold TopicEdit.flying
    rw [decide_eq_false haccepted]
    rfl
  refine hs.change hedit rfl hs.ordered (fun _ h => h) ?_ ?_ ?_ ?_ ?_ ?_ hs.quiet
  · intro hnew
    rw [hflying] at hnew
    cases hnew
  · intro other otherEdit _ hlookup hother
    exact hs.flying other otherEdit hlookup hother
  · intro hdue
    exact hs.trimmed token edit hedit hdue
  · intro hdue
    exact hs.late token edit hedit hdue
  · intro hexpired
    exact hs.expired token edit hedit hexpired
  · intro name
    have hcovers := hs.covered name
    convert hcovers using 1
    · ext other
      rw [mem_tickets_change, mem_tickets]
      refine and_congr_right fun _ => ?_
      constructor
      · intro h otherEdit hlookup
        by_cases heq : other = token
        · rw [heq] at hlookup
          rw [← Option.some.inj (hedit.symm.trans hlookup)]
          exact hflying edit.outcome
        · exact h.2 heq otherEdit hlookup
      · intro h
        exact ⟨fun _ => hflying _, fun _ => h⟩
    · ext other
      rw [mem_debts_change]
      constructor
      · intro h
        rcases h with ⟨heq, hdue, hname⟩ | ⟨_, h⟩
        · rw [heq]
          exact mem_debts.mpr ⟨edit, hedit, hdue, hname⟩
        · exact h
      · intro h
        by_cases heq : other = token
        · obtain ⟨otherEdit, hlookup, hdue, hname⟩ := mem_debts.mp h
          rw [heq] at hlookup
          rw [← Option.some.inj (hedit.symm.trans hlookup)] at hdue hname
          exact .inl ⟨heq, hdue, hname⟩
        · exact .inr ⟨heq, h⟩

end

theorem step_tracked {t : TopicRenames} {a : TopicRenameStep} (hguard : s.Tellable a)
    (h : s.step a = some t) : t.Tracked := by
  cases a with
  | edit title =>
    have hedit := hs.edit (truncateTopicName_ne title)
    have ht := Option.some.inj h
    rw [← ht]
    exact hedit
  | accept token =>
    obtain ⟨edit, hedit, h⟩ := Option.bind_eq_some_iff.mp h
    split at h
    next haccept =>
      cases h
      obtain ⟨hunaccepted, hpassed, _⟩ := haccept
      obtain ⟨hname, hrunning⟩ := hguard edit hedit
      have hexpired : edit.expired = false := by
        by_contra hexpired
        rw [Bool.not_eq_false] at hexpired
        have hlt := hs.expired token edit hedit hexpired
        omega
      refine hs.accept hedit ?_ hname hpassed
      unfold TopicEdit.flying
      rw [hunaccepted, hrunning, hexpired]
      rfl
    next => cases h
  | respond token outcome =>
    obtain ⟨edit, hedit, h⟩ := Option.bind_eq_some_iff.mp h
    split at h
    next hrespond =>
      obtain ⟨hrunning, hconfirmed, hrefused⟩ := hrespond
      split at h
      next hchanged =>
        cases h
        rw [hchanged]
        exact hs.confirm hedit (hconfirmed hchanged)
      next hchanged =>
        cases h
        exact hs.respond hedit hrunning hrefused hchanged (hguard edit hedit)
    next => cases h
  | userRenames name =>
    cases h
    exact ⟨hs.below, hs.named, hs.ordered, hs.known, hs.flying, hs.trimmed, hs.late, hs.expired, hs.covered, hs.quiet⟩
  | ownMessage token current =>
    obtain ⟨edit, hedit, h⟩ := Option.bind_eq_some_iff.mp h
    split at h
    next hdue =>
      have htold := hs.ownMessage hedit hdue (hguard edit hedit) current
      rw [← Option.some.inj h]
      exact htold
    next => cases h
  | userMessage index current =>
    obtain ⟨name, hname, h⟩ := Option.bind_eq_some_iff.mp h
    have htold := hs.userMessage (hguard name hname) current (s.renames.eraseIdx index)
    rw [← Option.some.inj h]
    exact htold
  | pass =>
    obtain ⟨edit, hedit, h⟩ := Option.bind_eq_some_iff.mp h
    split at h
    next => cases h
    next hnot =>
      cases h
      refine ⟨hs.below, hs.named, hs.ordered, hs.known, hs.flying, hs.trimmed, ?_, ?_, hs.covered, hs.quiet⟩
      · intro token other hlookup hdue
        have hle := hs.late token other hlookup hdue
        have hne : token ≠ s.passed := by
          intro heq
          rw [heq] at hlookup
          rw [← Option.some.inj (hedit.symm.trans hlookup)] at hdue
          exact hnot (of_decide_eq_true hdue)
        dsimp only
        omega
      · intro token other hlookup hexpired
        have hlt := hs.expired token other hlookup hexpired
        dsimp only
        omega
  | expire token =>
    obtain ⟨edit, hedit, h⟩ := Option.bind_eq_some_iff.mp h
    split at h
    next hexpire =>
      cases h
      refine hs.drop hedit rfl ?_ rfl (fun _ => hexpire.1) (hs.due_notMem hexpire.1)
      unfold TopicEdit.flying
      rw [Bool.not_true, Bool.and_false]
    next => cases h

end

/-- Renames of a topic do not echo in a run whose steps let the echoes be told from renames. -/
theorem renames_do_not_echo {t : TopicRenames} {steps : List TopicRenameStep}
    (hmeets : Runs.Meets step Tellable start steps) (hrun : Runs.run step start steps = some t) : t.Quiet := by
  have hend : t.Tracked := Runs.run_invariant_of_meets Tracked
    (fun _ _ _ hs hguard h => step_tracked hs hguard h) start_tracked hmeets hrun
  exact hend.quiet

/-- A topic edit whose message arrives before its response, and then a user's rename to the same name. -/
def editThenRename : List TopicRenameStep :=
  [.edit "name", .accept 0, .ownMessage 0 true, .respond 0 .changed, .userRenames "name", .userMessage 0 true]

theorem renames_do_not_echo_editThenRename :
    ∃ t, Runs.run step start editThenRename = some t ∧
      t.actions = [.consumed (some 0) "name" true, .threadRenamed none "name"] ∧ t.Quiet := by
  have hmeets : Runs.Meets step Tellable start editThenRename := by decide +kernel
  have hactions : (Runs.run step start editThenRename).map (·.actions) =
      some [.consumed (some 0) "name" true, .threadRenamed none "name"] := by decide +kernel
  obtain ⟨t, ht, hdone⟩ := Option.map_eq_some_iff.mp hactions
  exact ⟨t, ht, hdone, renames_do_not_echo hmeets ht⟩

/-- The response to an accepted edit is lost, so its marker is gone when its message arrives. -/
def lostResponse : List TopicRenameStep := [.edit "name", .accept 0, .respond 0 .failed, .ownMessage 0 true]

theorem lost_response_echoes :
    ¬∀ (steps : List TopicRenameStep) (t : TopicRenames), Runs.run step start steps = some t → t.Quiet := by
  intro h
  have hactions : (Runs.run step start lostResponse).map (·.actions) = some [.threadRenamed (some 0) "name"] := by
    decide +kernel
  obtain ⟨t, ht, hdone⟩ := Option.map_eq_some_iff.mp hactions
  have hquiet : (some 0 : Option Nat) = none := by
    have hall := h lostResponse t ht
    unfold Quiet at hall
    rw [hdone] at hall
    exact hall _ mem_cons_self
  cases hquiet

end TopicRenames

end MochiPort
