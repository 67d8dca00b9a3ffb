import BrokerExec.Adapters.Kotak.Session
import BrokerExec.Lib.TwoRuns

/-!
# Where the credentials go (`adapters/kotak/kotak_session.cpp`)

The five secrets of a login reach two places: the header of the first exchange and the bodies of the
others. Two processes that differ in nothing but the secrets are compared there, and everywhere else.

* **`secrets_stay`** — but for those two places, nobody can tell them apart.
-/

namespace BrokerExec.Adapters.Kotak.Login

open BrokerExec.Process (Both BothTry SameError)
open BrokerExec.SessionGuard (SessionState)

/-- A request without the credentials that it carries for the operator. -/
def HttpRequest.blind (request : HttpRequest) : HttpRequest :=
  if request.path = kOauthToken then { request with headers := request.headers.drop 1 }
  else if request.path = kLoginValidate then { request with body := [] }
  else request

def Event.blind : Event → Event
  | .sent request answer => .sent request.blind answer
  | e => e

/-- What anybody else sees of two worlds is the same. -/
def SameSight (w w' : World) : Prop :=
  w.stored = w'.stored ∧ w.log.map Event.blind = w'.log.map Event.blind

/-- Both providers know a secret, or fail with the same error. -/
def SameProvider (secret secret' : Bytes → Result Bytes) : Prop :=
  ∀ name, SameError (fun _ _ => True) (secret name) (secret' name)

/-- The outside differs in the secrets only. -/
structure SameButSecrets (t t' : Tick) : Prop where
  secret : SameProvider t.secret t'.secret
  response : t.response = t'.response
  saved : t.saved = t'.saved
  loadFault : t.loadFault = t'.loadFault

theorem SameSight.hear {w w' : World} (h : SameSight w w') {e e' : Event} (he : e.blind = e'.blind) :
    SameSight (w.hear e) (w'.hear e') := by
  refine ⟨h.1, ?_⟩
  show (w.log ++ [e]).map Event.blind = (w'.log ++ [e']).map Event.blind
  rw [List.map_append, List.map_append, h.2, List.map_singleton, List.map_singleton, he]

variable {parse : ParseJson}

/-- The values that two attempts end with are one. -/
abbrev Same {α : Type} (m m' : Establishing α) : Prop :=
  BothTry SameButSecrets SameSight m m' Eq

theorem askSecret_both (name : Bytes) :
    BothTry SameButSecrets SameSight (plainly (askSecret name)) (plainly (askSecret name))
      fun _ _ => True :=
  BothTry.mapError (Both.ask fun _ _ _ _ ht hs => ⟨ht.secret name, hs⟩)

theorem sameError_refl {α ε : Type} (r : Except ε α) : SameError Eq r r := by
  cases r <;> rfl

theorem send_both {request request' : HttpRequest} (h : request.blind = request'.blind) :
    Both SameButSecrets SameSight (send request) (send request') Eq := by
  refine Both.ask fun t t' w w' ht hw => ⟨ht.response, ?_⟩
  refine hw.hear ?_
  show Event.sent request.blind t.response = Event.sent request'.blind t'.response
  rw [h, ht.response]

theorem exchange_both {request request' : HttpRequest} (h : request.blind = request'.blind) :
    Same (exchange parse request) (exchange parse request') := by
  unfold exchange
  have hsend : Same (plainly (send request)) (plainly (send request')) := by
    refine BothTry.mapError ?_
    refine Process.Both.weaken (send_both h) fun r r' hr => ?_
    rw [hr]
    exact sameError_refl r'
  refine BothTry.bind hsend fun r r' hr => ?_
  rw [hr]
  cases isKotakSuccess parse r' with
  | true => exact BothTry.pure rfl
  | false => exact BothTry.throw

theorem fetchAccessToken_both (consumerKey consumerSecret consumerKey' consumerSecret' : Bytes) :
    Same (fetchAccessToken parse consumerKey consumerSecret)
      (fetchAccessToken parse consumerKey' consumerSecret') := by
  unfold fetchAccessToken
  -- the two requests differ in the header that is dropped
  refine BothTry.bind (exchange_both rfl) fun r r' hr => ?_
  rw [hr]
  cases accessTokenIn parse r'.body with
  | nil => exact BothTry.throw
  | cons c token => exact BothTry.pure rfl

theorem postLogin_both (accessToken body body' : Bytes) (extraHeaders : List (Bytes × Bytes)) :
    Same (postLogin parse accessToken body extraHeaders)
      (postLogin parse accessToken body' extraHeaders) := by
  unfold postLogin
  -- and these in their bodies
  have hblind : (loginRequest accessToken body extraHeaders).blind
      = (loginRequest accessToken body' extraHeaders).blind := by
    have hpath : kLoginValidate ≠ kOauthToken := by decide
    unfold HttpRequest.blind loginRequest
    simp [hpath]
  refine BothTry.bind (exchange_both hblind) fun r r' hr => ?_
  rw [hr]
  exact BothTry.mapError (Both.pure (sameError_refl _))

theorem legs_both (consumerKey consumerSecret mobile password mpin consumerKey' consumerSecret'
    mobile' password' mpin' : Bytes) :
    Same (legs parse consumerKey consumerSecret mobile password mpin)
      (legs parse consumerKey' consumerSecret' mobile' password' mpin') := by
  unfold legs
  refine BothTry.bind (fetchAccessToken_both _ _ _ _) fun accessToken accessToken' htoken => ?_
  rw [htoken]
  refine BothTry.bind (postLogin_both _ _ _ _) fun view view' hview => ?_
  rw [hview]
  refine BothTry.bind (postLogin_both _ _ _ _) fun finalLeg finalLeg' hfinal => ?_
  rw [hfinal]
  exact BothTry.pure rfl

theorem save_both (text : Bytes) : Both SameButSecrets SameSight (save text) (save text) Eq := by
  refine Both.ask fun t t' w w' ht hw => ?_
  rw [ht.saved]
  refine ⟨rfl, ?_, ?_⟩
  · show (if _ then _ else w.stored) = if _ then _ else w'.stored
    rw [hw.1]
  · exact (hw.hear rfl).2

theorem persist_both (bundle : KotakSessionBundle) : Same (persist bundle) (persist bundle) := by
  unfold persist
  cases bundle.complete with
  | true =>
    have hsave : Same (plainly (save bundle.toJson)) (plainly (save bundle.toJson)) := by
      refine BothTry.mapError (Process.Both.weaken (save_both bundle.toJson) fun r r' hr => ?_)
      rw [hr]
      exact sameError_refl r'
    exact BothTry.bind hsave fun _ _ _ => BothTry.pure rfl
  | false => exact BothTry.pure rfl

theorem establish_both (inputs : KotakLoginInputs) :
    Both SameButSecrets SameSight (establish parse inputs) (establish parse inputs) Eq := by
  have hlogin : Same (login parse inputs) (login parse inputs) := by
    unfold login
    refine BothTry.bind (askSecret_both _) fun consumerKey consumerKey' _ => ?_
    refine BothTry.bind (askSecret_both _) fun consumerSecret consumerSecret' _ => ?_
    refine BothTry.bind (askSecret_both _) fun mobile mobile' _ => ?_
    refine BothTry.bind (askSecret_both _) fun password password' _ => ?_
    refine BothTry.bind (askSecret_both _) fun mpin mpin' _ => ?_
    refine BothTry.bind (legs_both _ _ _ _ _ _ _ _ _ _) fun bundle bundle' hbundle => ?_
    rw [hbundle]
    exact persist_both bundle'
  refine Both.bind hlogin fun outcome outcome' houtcome => Both.pure ?_
  cases outcome with
  | error f =>
    cases outcome' with
    | error f' => exact congrArg (fun f => verdict (.error f)) houtcome
    | ok state' => exact houtcome.elim
  | ok state =>
    cases outcome' with
    | error f' => exact houtcome.elim
    | ok state' => exact congrArg Except.ok houtcome

theorem loadText_both : Both SameButSecrets SameSight loadText loadText Eq := by
  refine Both.ask fun t t' w w' ht hw => ?_
  rw [ht.loadFault, hw.1]
  cases t'.loadFault with
  | some error => exact ⟨rfl, hw⟩
  | none =>
    cases w'.stored with
    | none => exact ⟨rfl, hw⟩
    | some text => exact ⟨rfl, hw⟩

theorem validate_both :
    Both SameButSecrets SameSight (validate parse) (validate parse) Eq := by
  unfold validate
  refine Both.bind loadText_both fun text text' htext => ?_
  rw [htext]
  cases text' with
  | error error => exact Both.pure rfl
  | ok text =>
    cases hread : KotakSessionBundle.fromJson parse text with
    | error error =>
      simp only [hread]
      exact Both.pure rfl
    | ok bundle =>
      simp only [hread]
      cases bundle.complete with
      | false => exact Both.pure rfl
      | true =>
        -- the probe is made of the bundle alone, which is one and the same
        refine Both.bind (send_both rfl) fun answer answer' hanswer => ?_
        rw [hanswer]
        exact Both.pure rfl

theorem serve_both (ops : List Op) :
    Both SameButSecrets SameSight (serve parse ops) (serve parse ops) Eq := by
  induction ops with
  | nil => exact Both.pure rfl
  | cons op ops ih =>
    have hperform : Both SameButSecrets SameSight (perform parse op) (perform parse op) Eq := by
      cases op with
      | establish inputs => exact establish_both inputs
      | validate => exact validate_both
    refine Both.bind hperform fun result result' hresult => ?_
    rw [hresult]
    exact Both.bind (Both.step fun w w' hw => ⟨rfl, hw.hear rfl⟩) fun _ _ _ => ih

/-- The same calls, and an outside that differs in the secrets only. -/
def SameLife (life life' : Life) : Prop :=
  life.ops = life'.ops ∧ List.Forall₂ SameButSecrets life.ticks life'.ticks

/-- **The credentials stay where they belong**: processes that differ in the operator's secrets only
store the same text, answer the same, and send the same but for the two places, however long each of
them lives. -/
theorem secrets_stay {all all' : List Life} (h : List.Forall₂ SameLife all all') :
    (lives parse all).stored = (lives parse all').stored
      ∧ (lives parse all).log.map Event.blind = (lives parse all').log.map Event.blind := by
  suffices hsight : ∀ w w', SameSight w w' →
      SameSight (all.foldl (live parse) w) (all'.foldl (live parse) w') from
    hsight _ _ ⟨rfl, rfl⟩
  induction h with
  | nil => exact fun _ _ hw => hw
  | cons hlife _ ih =>
    intro w w' hw
    refine ih _ _ ?_
    unfold live
    rw [hlife.1]
    exact (serve_both _).state hlife.2 hw

/-- Every name of the provider has one secret, and the broker grants whatever it is asked. -/
def sampleTick (secret : Bytes) : Tick where
  secret := fun _ => .ok secret
  response := .ok ⟨200, [], ascii "granted"⟩
  saved := ⟨true, .ok (), fun _ => rfl⟩
  loadFault := none

/-- One document that serves as every answer, and as the bundle that is read back. -/
def sampleParse : ParseJson := fun _ =>
  some (.object
    [(ascii "access_token", .string (ascii "a1")), (ascii "token", .string (ascii "t1")),
      (ascii "sid", .string (ascii "s1")), (ascii "serverId", .string (ascii "h1")),
      (ascii "hs_server_id", .string (ascii "h1"))])

/-- A login and a probe, with answers for all that they ask. -/
def sampleLife (secret : Bytes) : Life where
  ops := [.establish .init, .validate]
  ticks := List.replicate 11 (sampleTick secret)

theorem secrets_stay_sample :
    (lives sampleParse [sampleLife (ascii "alpha")]).stored
        = (lives sampleParse [sampleLife (ascii "beta")]).stored
      ∧ (lives sampleParse [sampleLife (ascii "alpha")]).log.map Event.blind
        = (lives sampleParse [sampleLife (ascii "beta")]).log.map Event.blind := by
  have htick : SameButSecrets (sampleTick (ascii "alpha")) (sampleTick (ascii "beta")) :=
    ⟨fun _ => trivial, rfl, rfl, rfl⟩
  have hticks : ∀ n, List.Forall₂ SameButSecrets (List.replicate n (sampleTick (ascii "alpha")))
      (List.replicate n (sampleTick (ascii "beta"))) := by
    intro n
    induction n with
    | zero => exact .nil
    | succ n ih => exact .cons htick ih
  exact secrets_stay (.cons ⟨rfl, hticks 11⟩ .nil)

end BrokerExec.Adapters.Kotak.Login
