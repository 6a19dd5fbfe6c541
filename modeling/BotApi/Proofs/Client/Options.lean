import BotApi.Proofs.Client.Secret
import BotApi.Proofs.Limit.Accepted
/-!
What becomes of the options a client is made with. They make a client or are reported as not valid, but for
two kinds: a token whose digits write no number, and a policy whose first wrong entry has levels of unknown
names which cannot be put in order.
-/

namespace BotApi

namespace Text

theorem decimalNumber?_of_isDecimal {s : List Char} (h : ∀ c ∈ s, isDecimal c = true) :
    (decimalNumber? s).isSome = true := by
  suffices hfold : ∀ n : Nat, (s.foldl (fun acc c => do
      let n ← acc
      let d ← decimalValue? c
      pure (10 * n + d)) (some n)).isSome = true from hfold 0
  induction s with
  | nil => exact fun _ => rfl
  | cons c s ih =>
      rw [List.forall_mem_cons] at h
      intro n
      obtain ⟨d, hd⟩ := Option.isSome_iff_exists.1 h.1
      rw [List.foldl_cons, hd]
      exact ih h.2 (10 * n + d)

theorem readableNumber?_eq_none {s : List Char} :
    readableNumber? s = none ↔ digitsMost < s.length ∨ ∃ c ∈ s, isDecimal c = false := by
  unfold readableNumber?
  split
  next hlong => exact iff_of_true rfl (.inl hlong)
  next hlong =>
    simp only [hlong, false_or]
    constructor
    · intro hnone
      by_contra hall
      have hsome := decimalNumber?_of_isDecimal fun c hc => by
        rw [← Bool.not_eq_false]
        exact fun hother => hall ⟨c, hc, hother⟩
      rw [hnone] at hsome
      cases hsome
    · rintro ⟨c, hc, hother⟩
      by_contra hsome
      obtain ⟨n, hn⟩ := Option.ne_none_iff_exists'.1 hsome
      rw [isDecimal_of_decimalNumber? hn c hc] at hother
      cases hother

end Text

namespace Token

-- There are digits before the first colon, but they write no number: too many, or not all of them decimal.
def Unread (token : String) : Prop := ∃ head, head? token.toList = some head ∧
  (Text.digitsMost < head.length ∨ ∃ c ∈ head, Text.isDecimal c = false)

theorem reported_botId {token : String} : Reported (botId token) ↔ ¬ Unread token := by
  unfold botId Unread
  cases hhead : head? token.toList with
  | none => simp
  | some head =>
      simp only [Option.some.injEq, exists_eq_left', ← Text.readableNumber?_eq_none]
      cases Text.readableNumber? head <;> simp

end Token

namespace Client

variable {o : ClientOptions} {own : Wire.Transport}

structure Ready (o : ClientOptions) (token : String) : Prop where
  given : o.token = .str token
  nonempty : token ≠ ""
  serverUrl : ∀ url, o.serverUrl = some url → ∃ s, url = .str s ∧ s ≠ ""
  limitRate : ∀ v, o.limitRate = some v → ∃ b, v = .bool b
  answers : ∀ rs, o.responses = some rs → o.transport = none ∧ rs.isUsable = true

theorem nonEmptyText_eq_ok {fault : ConfigFault} {v : Value} {s : String} :
    nonEmptyText fault v = .ok s ↔ v = .str s ∧ s ≠ "" := by
  cases v with
  | str t =>
      rw [nonEmptyText]
      by_cases ht : t = ""
      · rw [if_pos (by simp [ht])]
        refine iff_of_false (by simp [config]) ?_
        rintro ⟨h, hs⟩
        exact hs ((Value.str.inj h).symm.trans ht)
      · rw [if_neg (by simpa using ht), Except.ok.injEq, Value.str.injEq]
        exact ⟨fun h => ⟨h, h ▸ ht⟩, And.left⟩
  | _ => simp [nonEmptyText, config]

theorem reported_nonEmptyText (fault : ConfigFault) (v : Value) : Reported (nonEmptyText fault v) := by
  unfold nonEmptyText
  split
  · split <;> simp [config]
  · simp [config]

theorem flag_eq_ok {fault : ConfigFault} {v : Value} {b : Bool} : flag fault v = .ok b ↔ v = .bool b := by
  cases v <;> simp [flag, config]

theorem reported_flag (fault : ConfigFault) (v : Value) : Reported (flag fault v) := by
  cases v <;> simp [flag, config]

theorem exists_chooseTransport {responses : Option Wire.Responses} {transport : Option Wire.Transport} :
    (∃ chosen, chooseTransport own responses transport = .ok chosen) ↔
      ∀ rs, responses = some rs → transport = none ∧ rs.isUsable = true := by
  cases responses with
  | none => cases transport <;> simp [chooseTransport]
  | some rs =>
      cases transport with
      | some t => simp [chooseTransport, config]
      | none => by_cases h : rs.isUsable = true <;> simp [chooseTransport, config, h]

theorem reported_chooseTransport (own : Wire.Transport) (responses : Option Wire.Responses)
    (transport : Option Wire.Transport) : Reported (chooseTransport own responses transport) := by
  unfold chooseTransport
  split
  · exact reported_config _
  · split <;> simp [config]
  · exact reported_ok _
  · exact reported_ok _

theorem ready_iff (own : Wire.Transport) {token : String} : Ready o token ↔ nonEmptyText .noToken o.token = .ok token ∧
    (∃ url, nonEmptyText .noServerUrl (o.serverUrl.getD (.str globalServerUrl)) = .ok url) ∧
    (∃ limit, flag .limitRate (o.limitRate.getD (.bool true)) = .ok limit) ∧
    ∃ chosen, chooseTransport own o.responses o.transport = .ok chosen := by
  simp only [nonEmptyText_eq_ok, flag_eq_ok, exists_chooseTransport]
  have hurl : (∃ url, o.serverUrl.getD (.str globalServerUrl) = .str url ∧ url ≠ "") ↔
      ∀ url, o.serverUrl = some url → ∃ s, url = .str s ∧ s ≠ "" := by
    cases o.serverUrl with
    | none => simp [globalServerUrl]
    | some url => simp
  have hlimit : (∃ limit, o.limitRate.getD (.bool true) = .bool limit) ↔
      ∀ v, o.limitRate = some v → ∃ b, v = .bool b := by
    cases o.limitRate with
    | none => simp
    | some v => simp
  rw [hurl, hlimit]
  exact ⟨fun h => ⟨⟨h.given, h.nonempty⟩, h.serverUrl, h.limitRate, h.answers⟩,
    fun ⟨⟨hgiven, hnonempty⟩, hurl, hlimit, hanswers⟩ => ⟨hgiven, hnonempty, hurl, hlimit, hanswers⟩⟩

theorem reported_ofOptions : Reported (ofOptions own o) ↔
    ∀ token, Ready o token → Reported (Token.botId token) ∧
      ∀ n, Token.botId token = .ok n → Reported (Limit.checkPolicy? o.policy) := by
  simp only [ofOptions, bind, Reported.bind_iff, reported_nonEmptyText, reported_flag, reported_chooseTransport,
    ready_iff own, pure, Except.pure, reported_ok, implies_true, and_true, true_and, and_imp,
    forall_exists_index]

theorem ofOptions_reported (own : Wire.Transport) (o : ClientOptions) :
    (Reported (ofOptions own o) ↔ ∀ token, Ready o token → ¬ Token.Unread token ∧
      ∀ n, Token.botId token = .ok n → ¬ Limit.Unsorted o.policy) ∧
    (Limit.Unsorted o.policy → ∃ es method levels, o.policy = .dict es ∧ (method, .dict levels) ∈ es ∧
      ∃ k ∈ Limit.unknownLevels levels, ∃ l ∈ Limit.unknownLevels levels, Value.less? k l = none) := by
  constructor
  · rw [reported_ofOptions]
    simp only [Token.reported_botId, Limit.reported_checkPolicy?]
  · rintro ⟨before, method, levels, after, hpolicy, -, hnone⟩
    obtain ⟨k, hk, l, hl, hless⟩ := Value.exists_of_sorted?_eq_none hnone
    exact ⟨_, method, levels, hpolicy, by simp, k, hk, l, hl, hless⟩

namespace Superscript

def transport : Wire.Transport := .canned (.byMethod [])

def options : ClientOptions := ⟨.str "²:x", none, none, .null, none, none, [], .null⟩

end Superscript

-- A superscript is a digit, but no number is written with it.
theorem superscript_not_reported : ¬ Reported (ofOptions Superscript.transport Superscript.options) := by
  have hvalue : ofOptions Superscript.transport Superscript.options = .error (.misuse .value "") := by
    with_unfolding_all rfl
  simp [hvalue]

end Client

end BotApi
