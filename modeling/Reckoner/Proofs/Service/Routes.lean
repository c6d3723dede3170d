import Reckoner.Proofs.Service.Requests

/-!
# Different lookups ask for different things

What a request brings depends on how often its route was asked before.  Different lookups have
different routes, so that what the one brings does not depend on whether the other one was sent.

* `Network.answer_append_of_ne` — other routes do not matter to a request.
* `Lookup.subject`, `Lookup.place`, `Lookup.route_request` — what a route consists of.
* `Lookup.route_ne_of_ne` — different lookups have different routes.
* `Service.ratesFetch_look_of_ne`, `Service.priceFetch_look_of_ne` — what fetches bring after a
  different lookup.
-/

namespace Reckoner

/-! ### Routes -/

/-- What a request brings does not depend on what was asked of other routes. -/
theorem Network.answer_append_of_ne (net : Network) (sent : List Request) {r r' : Request}
    (h : r.route ≠ r'.route) : net.answer (sent ++ [r]) r' = net.answer sent r' := by
  simp [answer, List.countP_append, h]

namespace Asset

/-- The price of every crypto asset is quoted under a name of its own. -/
theorem nodup_quotedAs? : (cryptoAssets.map (·.kind.quotedAs?)).Nodup := by
  decide +kernel

/-- The codes of fiat currencies end in a capital letter, and the names under which prices are
    quoted do not. -/
theorem isUpper_of_fiat : ∀ a ∈ fiatCurrencies,
    (":" ++ a.code).toList.getLast?.any Char.isUpper = true := by
  decide +kernel

@[inherit_doc isUpper_of_fiat]
theorem isUpper_of_crypto : ∀ a ∈ cryptoAssets,
    (":" ++ a.kind.quotedAs?.getD "").toList.getLast?.any Char.isUpper = false := by
  decide +kernel

/-- A crypto asset has a name under which its price is quoted. -/
theorem isSome_quotedAs? : ∀ a ∈ cryptoAssets, a.kind.quotedAs?.isSome = true := by
  decide +kernel

/-- Crypto assets whose prices are quoted under one name are one asset. -/
theorem eq_of_quotedAs? {a b : Asset} (ha : a ∈ cryptoAssets) (hb : b ∈ cryptoAssets)
    (h : a.kind.quotedAs?.getD "" = b.kind.quotedAs?.getD "") : a = b := by
  obtain ⟨x, hx⟩ := Option.isSome_iff_exists.mp (isSome_quotedAs? a ha)
  obtain ⟨y, hy⟩ := Option.isSome_iff_exists.mp (isSome_quotedAs? b hb)
  rw [hx, hy] at h
  have hxy : x = y := h
  exact List.inj_on_of_nodup_map nodup_quotedAs? ha hb (by rw [hx, hy, hxy])

end Asset

namespace Lookup

/-- What a lookup asks about: the code of a currency, or the name under which the price of a crypto
    asset is quoted. -/
def subject : Lookup → String
  | .rates code => code
  | .price code => ((Asset.crypto? code).bind fun a => a.kind.quotedAs?).getD ""

/-- Where a lookup asks. -/
def place (fx crypto : Feed) : Lookup → String
  | .rates _ => (((fx.url ++ "/latest").splitOn "/").getLast?).getD ""
  | .price _ => (((crypto.url ++ "/simple/price").splitOn "/").getLast?).getD ""

theorem route_request (fx crypto : Feed) (l : Lookup) :
    (l.request fx crypto).route = l.place fx crypto ++ (":" ++ l.subject) := by
  rw [← String.append_assoc]
  cases l <;> rfl

theorem subject_price {a : Asset} (h : a ∈ Asset.cryptoAssets) :
    (price a.code).subject = a.kind.quotedAs?.getD "" := by
  simp [subject, (Asset.crypto?_code a h).2.1]

/-- The last character of a route is that of its subject, which tells the two kinds of lookups
    apart. -/
theorem route_rates_ne_route_price (fx crypto : Feed) {a b : Asset} (ha : a ∈ Asset.fiatCurrencies)
    (hb : b ∈ Asset.cryptoAssets) :
    ((rates a.code).request fx crypto).route ≠ ((price b.code).request fx crypto).route := by
  -- The last character of a route is that of what it asks about: a capital for fiat only.
  have hlast : ∀ (before : String) {s : String} {u : Bool},
      (":" ++ s).toList.getLast?.any Char.isUpper = u →
        (before ++ (":" ++ s)).toList.getLast?.any Char.isUpper = u := by
    rintro before s u rfl
    obtain ⟨c, hc⟩ : ∃ c, (":" ++ s).toList.getLast? = some c :=
      Option.isSome_iff_exists.mp (by simp)
    rw [String.toList_append, List.getLast?_append, hc, Option.some_or]
  intro heq
  have hfiat := hlast ((rates a.code).place fx crypto) (Asset.isUpper_of_fiat a ha)
  have hcrypto := hlast ((price b.code).place fx crypto) (Asset.isUpper_of_crypto b hb)
  rw [route_request, route_request, subject_price hb] at heq
  have hfiat' : (rates a.code).subject = a.code := rfl
  rw [hfiat'] at heq
  rw [heq, hcrypto] at hfiat
  cases hfiat

/-- **Different lookups have different routes.** -/
theorem route_ne_of_ne {l l' : Lookup} (hl : l.IsListed) (hl' : l'.IsListed) (hne : l ≠ l')
    (fx crypto : Feed) : (l.request fx crypto).route ≠ (l'.request fx crypto).route := by
  obtain ⟨a, ha⟩ := Option.isSome_iff_exists.mp hl
  obtain ⟨b, hb⟩ := Option.isSome_iff_exists.mp hl'
  cases l with
  | rates code =>
    obtain ⟨hmem, rfl⟩ := Asset.fiat?_eq_some ha
    cases l' with
    | rates code' =>
      rw [route_request, route_request]
      intro heq
      have hsubject := (String.append_right_inj _).mp ((String.append_right_inj _).mp heq)
      exact hne (congrArg rates hsubject)
    | price code' =>
      obtain ⟨hmem', rfl⟩ := Asset.crypto?_eq_some hb
      exact route_rates_ne_route_price fx crypto hmem hmem'
  | price code =>
    obtain ⟨hmem, rfl⟩ := Asset.crypto?_eq_some ha
    cases l' with
    | rates code' =>
      obtain ⟨hmem', rfl⟩ := Asset.fiat?_eq_some hb
      exact (route_rates_ne_route_price fx crypto hmem' hmem).symm
    | price code' =>
      obtain ⟨hmem', rfl⟩ := Asset.crypto?_eq_some hb
      rw [route_request, route_request]
      intro heq
      have hsubject := (String.append_right_inj _).mp ((String.append_right_inj _).mp heq)
      rw [subject_price hmem, subject_price hmem'] at hsubject
      exact hne (by rw [Asset.eq_of_quotedAs? hmem hmem' hsubject])

end Lookup

/-! ### Fetches after other lookups -/

namespace Service

variable {fx crypto : Feed} {timeout : Float} {s : Service} {l : Lookup}

/-- What a different lookup asks for brings what it would have brought. -/
theorem answer_look_of_ne (hs : s.IsFed fx crypto timeout) (net : Network) (id : Nat)
    (hl : l.IsListed) {l' : Lookup} (hl' : l'.IsListed) (hne : l ≠ l') :
    net.answer (look net id s l).sent (l'.request fx crypto) =
      net.answer s.sent (l'.request fx crypto) := by
  rw [sent_look hs id hl]
  split_ifs
  · rw [List.append_nil]
  · exact net.answer_append_of_ne s.sent (Lookup.route_ne_of_ne hl hl' hne fx crypto)
  · rw [List.append_nil]

theorem ratesFetch_look_of_ne (hs : s.IsFed fx crypto timeout) (net : Network) (id : Nat)
    (hl : l.IsListed) {code : String} (hcode : (Lookup.rates code).IsListed)
    (hne : l ≠ .rates code) :
    (look net id s l).ratesFetch net code = s.ratesFetch net code := by
  have hafter := (inside_isFed net fx crypto timeout).look id hl hs
  have hanswer := answer_look_of_ne hs net id hl hcode hne
  rw [← ratesRequest_of_listed fx crypto hcode] at hanswer
  unfold ratesFetch
  simp only [hafter.fiat_eq, hs.fiat_eq, hanswer]

theorem priceFetch_look_of_ne (hs : s.IsFed fx crypto timeout) (net : Network) (id : Nat)
    (hl : l.IsListed) {code : String} (hcode : (Lookup.price code).IsListed)
    (hne : l ≠ .price code) :
    (look net id s l).priceFetch net code = s.priceFetch net code := by
  have hafter := (inside_isFed net fx crypto timeout).look id hl hs
  have hanswer := answer_look_of_ne hs net id hl hcode hne
  unfold priceFetch
  simp only [hafter.crypto_eq, hs.crypto_eq]
  exact congrArg (fun answer : TimedReply => ((Lookup.price code).request fx crypto, Delivery.mk
    answer.delay ((crypto.price (Lookup.price code).subject answer.reply).toOption).join
    answer.winsTie)) hanswer

end Service

end Reckoner
