import Atlas.Proofs.Message.Payloads
import Atlas.Proofs.Session.Mounted
import Atlas.Proofs.Session.Refusal

/-!
# Views that stay finite

A message moves the view to the center that it names, or to the middle of a box. A center is
refused unless it is finite, and a box that is not finite is not shown. But the middle of a box is
computed from the sums of its opposite sides, and the sum of two finite sides can be too great for a
double. Then the view is nowhere: it has no box, and nulls take the place of its coordinates.

## Main statements

* `Session.center_receive` — where a message moves the view to
* `Session.plain_receiveAll_iff` — the views and what is told about them stay finite, unless a box
  is shown whose opposite sides have no finite sum
-/

namespace Atlas

/-! ## Targets -/

/-- The box that a command shows, whether the view can be fitted to it or not. -/
def Command.box? : Command → Option (Bounds Float)
  | .setExtent box => some box
  | .loadFeatures value => Session.boundsOf? (Session.importable value)
  | _ => none

/-- The center of a view that is fitted to a box. -/
def Bounds.middle? (b : Bounds Float) : Option Coord := if View.fits b then some b.center else none

/-- The center that a command moves the view to. -/
def Command.target? : Command → Option Coord
  | .center request => request.parse.toOption.map Prod.fst
  | .setExtent box => box.middle?
  | .loadFeatures value => (Session.boundsOf? (Session.importable value)).bind Bounds.middle?
  | _ => none

/-- The box that a message shows. -/
def Message.box? (msg : Message) : Option (Bounds Float) := msg.command?.bind Command.box?

/-- The center that a message moves the view to. -/
def Message.target? (msg : Message) : Option Coord := msg.command?.bind Command.target?

/-- The sums of the opposite sides of a box are finite. -/
def Bounds.HasMiddle (b : Bounds Float) : Prop :=
  (b.left + b.right).isFinite = true ∧ (b.bottom + b.top).isFinite = true

/-- The middle of a box is finite if and only if the sums of its opposite sides are. -/
theorem Bounds.isFinite_center_iff {b : Bounds Float} :
    Coord.isFinite b.center = true ↔ b.HasMiddle := by
  rw [Coord.isFinite_iff]
  exact and_congr Double.isFinite_half_iff Double.isFinite_half_iff

namespace Message

variable {msg : Message}

theorem target?_of_box? {box : Bounds Float} (h : msg.box? = some box) :
    msg.target? = box.middle? := by
  obtain ⟨c, hc, hbox⟩ := Option.bind_eq_some_iff.1 h
  rw [target?, hc, Option.bind_some]
  cases c with
  | setExtent box' =>
    cases hbox
    rfl
  | loadFeatures value =>
    have hvalue : Session.boundsOf? (Session.importable value) = some box := hbox
    rw [Command.target?, hvalue, Option.bind_some]
  | center | changeLayer | sortProducts | updateOpacity | activateTool | exportSelection
  | changePeriod => cases hbox

/-- A target is the center of a request or the middle of a box. -/
theorem target?_cases {target : Coord} (h : msg.target? = some target) :
    target.isFinite = true ∨
      ∃ box, msg.box? = some box ∧ View.fits box = true ∧ target = box.center := by
  obtain ⟨c, hc, htarget⟩ := Option.bind_eq_some_iff.1 h
  have hbox : msg.box? = c.box? := by rw [box?, hc, Option.bind_some]
  have hmiddle : ∀ {box : Bounds Float}, box.middle? = some target →
      View.fits box = true ∧ target = box.center := by
    intro box hbox
    rw [Bounds.middle?] at hbox
    split at hbox
    · next hfits =>
      cases hbox
      exact ⟨hfits, rfl⟩
    · cases hbox
  cases c with
  | center request =>
    obtain ⟨⟨center, zoom⟩, hparse, rfl⟩ := Option.map_eq_some_iff.1 htarget
    left
    cases hrequest : request.parse with
    | ok read =>
      rw [hrequest] at hparse
      cases hparse
      exact CenterRequest.isFinite_of_parse hrequest
    | error fault =>
      rw [hrequest] at hparse
      cases hparse
  | setExtent box => exact .inr ⟨box, hbox, hmiddle htarget⟩
  | loadFeatures value =>
    obtain ⟨box, hvalue, htarget⟩ := Option.bind_eq_some_iff.1 htarget
    exact .inr ⟨box, hbox.trans hvalue, hmiddle htarget⟩
  | changeLayer | sortProducts | updateOpacity | activateTool | exportSelection
  | changePeriod => cases htarget

end Message

namespace Session

variable {σ : Type}

/-! ## Where the view goes -/

theorem center_fit (m : Session σ) (box : Bounds Float) :
    (m.fit box).1.view.center = box.middle?.getD m.view.center := by
  rw [Session.fit, View.fit, Bounds.middle?]
  by_cases hfits : View.fits box = true
  · rw [if_pos hfits, if_pos hfits]
    rfl
  · rw [if_neg hfits, if_neg hfits]
    rfl

theorem handle_setExtent [FileSaver σ] (m : Session σ) {box : Bounds Float}
    (hbox : box.isFinite = true) :
    m.handle Topic.setExtent.name box.toJson = ((m.fit box).1, .ok ()) :=
  handle_of_spells (.setExtent (Bounds.ofJson?_toJson hbox))

theorem view_toolActivated (m : Session σ) (a : ToolActivation) :
    (m.toolActivated a).1.view = m.view := by
  rw [toolActivated]
  split
  · rfl
  · split
    · rfl
    · split
      · rfl
      · rfl

theorem center_perform [FileSaver σ] (m : Session σ) (c : Command) :
    (m.perform c).1.view.center = c.target?.getD m.view.center := by
  cases c with
  | center request =>
    show (m.center request).1.view.center = _
    rw [Session.center, Command.target?]
    cases request.parse with
    | ok target => rfl
    | error fault => rfl
  | setExtent box => exact center_fit m box
  | loadFeatures value =>
    show (m.load value).1.view.center = _
    rw [load, Command.target?]
    cases boundsOf? (importable value) with
    | none => rfl
    | some box => exact center_fit _ box
  | activateTool activation => exact congrArg View.center (view_toolActivated m activation)
  | changeLayer change =>
    show (m.changeLayer change).1.view.center = _
    rw [changeLayer]
    cases m.roleOfChange? change with
    | none => rfl
    | some role => rfl
  | sortProducts | updateOpacity | exportSelection | changePeriod => rfl

/-- **A message moves the view to its target,** if it has one. -/
theorem center_receive [FileSaver σ] (m : Session σ) (msg : Message) :
    (m.receive msg).view.center = msg.target?.getD m.view.center := by
  rw [receive_eq, Message.target?]
  cases msg.command? with
  | none => rfl
  | some c => exact center_perform m c

/-! ## Finite views -/

/-- The center and the box of the view are finite, and so is everything that has been told about
moves or is answered about the box: no null takes the place of a number. -/
structure Plain (m : Session σ) : Prop where
  center : Coord.isFinite m.view.center = true
  bounds : m.view.bounds.isFinite = true
  told : ∀ n ∈ m.outbox.notices, n.tellsMove = true → ¬ n.payload.HasPart .null
  answered : ∃ answer, m.request Topic.getExtent.name = some answer ∧ ¬ answer.HasPart .null

theorem request_getExtent (m : Session σ) :
    m.request Topic.getExtent.name = some m.view.bounds.toJson := by
  rw [request, Topic.ofName?_name]

/-- A view with a finite center is plain, if everything told before is. -/
theorem plain_of_told {m : Session σ} (hallowed : m.view.Allowed)
    (hcenter : Coord.isFinite m.view.center = true)
    (htold : ∀ n ∈ m.outbox.notices, n.tellsMove = true → ¬ n.payload.HasPart .null) : m.Plain := by
  have hbounds := View.isFinite_bounds hallowed hcenter
  exact ⟨hcenter, hbounds, htold, _, request_getExtent m,
    fun h => Bounds.hasPart_null_iff.1 h hbounds⟩

theorem not_hasPart_null_of_mem_moveNotices {v : View Float} (hallowed : v.Allowed)
    (hcenter : Coord.isFinite v.center = true) {n : Notice} (hn : n ∈ moveNotices v) :
    ¬ n.payload.HasPart .null := by
  rw [moveNotices, List.mem_cons, List.mem_singleton] at hn
  rcases hn with rfl | rfl
  · exact fun h => CenterRequest.hasPart_null_iff.1 h hcenter
  · exact fun h => Bounds.hasPart_null_iff.1 h (View.isFinite_bounds hallowed hcenter)

/-- A step to a view with a finite center keeps a session plain. -/
theorem Step.plain {m m' : Session σ} {ns : List Notice} (hstep : m.Step m' ns) (h : m.Plain)
    (hallowed : m'.view.Allowed) (hcenter : Coord.isFinite m'.view.center = true) : m'.Plain := by
  refine plain_of_told hallowed hcenter (fun n hn htells => ?_)
  have hnew : n ∈ ns → ¬ n.payload.HasPart .null := by
    intro hn
    cases hstep.told with
    | stays _ hsilent =>
      rw [hsilent n hn] at htells
      cases htells
    | moves earlier hns hsilent =>
      rw [hns, List.mem_append] at hn
      rcases hn with hn | hn
      · rw [hsilent n hn] at htells
        cases htells
      · exact not_hasPart_null_of_mem_moveNotices hallowed hcenter hn
  rcases hstep.notices with hnotices | ⟨hnotices, -⟩
  · rw [hnotices, List.mem_append] at hn
    exact hn.elim (fun hn => h.told n hn htells) hnew
  · rw [hnotices] at hn
    cases hn

theorem plain_mount {v : Json} {s : Settings} (hv : v.Spellable)
    (hs : Settings.ofJson? v = some s) (store : σ) : (mount s store).Plain := by
  have hcenter : Coord.isFinite (mount s store).view.center = true :=
    Coord.isFinite_iff.2 (Settings.isFinite_center hv hs)
  refine plain_of_told (allowed_mount hs store) hcenter ?_
  intro n hn htells
  obtain ⟨spec, -, rfl⟩ := List.mem_map.1 hn
  cases htells

/-- **Views stay finite** exactly as long as no box is shown whose opposite sides have no finite
sum. -/
theorem plain_receiveAll_iff [FileSaver σ] {v : Json} {s : Settings} (hv : v.Spellable)
    (hs : Settings.ofJson? v = some s) (store : σ) (msgs : List Message) :
    (∀ earlier, earlier <+: msgs → ((mount s store).receiveAll earlier).Plain) ↔
      ∀ msg ∈ msgs, ∀ box, msg.box? = some box → View.fits box = true → box.HasMiddle := by
  constructor
  · intro hplain msg hmsg box hbox hfits
    obtain ⟨before, after, rfl⟩ := List.append_of_mem hmsg
    have h := (hplain (before ++ [msg]) ⟨after, by rw [List.append_assoc]; rfl⟩).center
    rw [receiveAll, List.foldl_append, List.foldl_cons, List.foldl_nil, center_receive,
      Message.target?_of_box? hbox, Bounds.middle?, if_pos hfits, Option.getD_some] at h
    exact Bounds.isFinite_center_iff.1 h
  · intro hboxes earlier hearlier
    have hallowed := allowed_mount hs store
    suffices h : ((mount s store).receiveAll earlier).Plain ∧
        ((mount s store).receiveAll earlier).view.Allowed from h.1
    refine List.foldlRecOn (motive := fun m : Session σ => m.Plain ∧ m.view.Allowed) earlier receive
      ⟨plain_mount hv hs store, hallowed⟩ ?_
    rintro m ⟨hplain, hallowed⟩ msg hmsg
    obtain ⟨ns, hstep⟩ := step_handle m msg.topic msg.payload
    have hallowed' : (m.receive msg).view.Allowed := hstep.allowed hallowed
    refine ⟨hstep.plain hplain hallowed' ?_, hallowed'⟩
    show Coord.isFinite (m.receive msg).view.center = true
    rw [center_receive]
    cases htarget : msg.target? with
    | none => exact hplain.center
    | some target =>
      rcases Message.target?_cases htarget with hfinite | ⟨box, hbox, hfits, rfl⟩
      · exact hfinite
      · exact Bounds.isFinite_center_iff.2 (hboxes msg (hearlier.subset hmsg) box hbox hfits)

/-- A box in the middle of the world keeps the view finite. -/
theorem plain_receive_box :
    let box : Bounds Float := ⟨0, 0, 10, 5⟩
    let msg : Message := ⟨Topic.setExtent.name, box.toJson⟩
    (Json.obj []).Spellable ∧ Settings.ofJson? (.obj []) = some .standard ∧
      ∀ earlier, earlier <+: [msg] →
        ((mount .standard Store.refusing).receiveAll earlier).Plain := by
  intro box msg
  have hv : (Json.obj []).Spellable := by
    intro n hn
    cases hn
  have hs : Settings.ofJson? (.obj []) = some .standard := by decide +kernel
  refine ⟨hv, hs, (plain_receiveAll_iff hv hs Store.refusing [msg]).2 ?_⟩
  intro msg' hmsg box' hbox _
  obtain rfl := List.mem_singleton.1 hmsg
  have hread : msg.box? = some box := by decide +kernel
  rw [hread] at hbox
  cases hbox
  exact ⟨by decide +kernel, by decide +kernel⟩

/-- A box far to the right: its sides are finite, but the sum of the left and the right one is not.
The view has no finite center then, and nulls are told and answered. -/
theorem not_plain_receive_box :
    let box : Bounds Float := ⟨1e308, 0, 1.7e308, 1⟩
    let m := (mount .standard Store.refusing).receive ⟨Topic.setExtent.name, box.toJson⟩
    Settings.ofJson? (.obj []) = some .standard ∧ box.isFinite = true ∧
      ¬ Coord.isFinite m.view.center = true ∧ ¬ m.view.bounds.isFinite = true ∧
      (∃ n ∈ m.outbox.notices, n.topic = .setUrl ∧ n.payload.HasPart .null) ∧
      (∃ n ∈ m.outbox.notices, n.topic = .positionChange ∧ n.payload.HasPart .null) ∧
      ∃ answer, m.request Topic.getExtent.name = some answer ∧ answer.HasPart .null := by
  intro box m
  have hbox : box.isFinite = true := by decide +kernel
  have hcenter : ¬ Coord.isFinite m.view.center = true := by decide +kernel
  have hbounds : ¬ m.view.bounds.isFinite = true := by decide +kernel
  have hfit : m = ((mount .standard Store.refusing).fit box).1 :=
    congrArg Prod.fst (handle_setExtent _ hbox)
  have htold : ∀ n ∈ moveNotices m.view, n ∈ m.outbox.notices := by
    rcases fit_cases (mount .standard Store.refusing) box with hstays | ⟨center, zoom, hmoved⟩
    · rw [hfit, hstays] at hcenter
      exact absurd (by decide +kernel) hcenter
    · rw [hfit, hmoved]
      exact fun n hn => List.mem_append_right _ hn
  refine ⟨by decide +kernel, hbox, hcenter, hbounds, ?_, ?_, ?_⟩
  · exact ⟨_, htold _ List.mem_cons_self, rfl, CenterRequest.hasPart_null_iff.2 hcenter⟩
  · exact ⟨_, htold _ (List.mem_cons_of_mem _ List.mem_cons_self), rfl,
      Bounds.hasPart_null_iff.2 hbounds⟩
  · exact ⟨_, request_getExtent m, Bounds.hasPart_null_iff.2 hbounds⟩

end Session
end Atlas
