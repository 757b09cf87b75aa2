import ThoriumFrugal.Privacy.SiteTheorems

/-!
# Addresses as hosts

Apart from the loopback address, an IPv4 address goes through the same label arithmetic as a name:
its last two octets are its domain.
-/

namespace ThoriumFrugal.Privacy.ThirdPartyClassifier

open Lib

namespace IPv4

variable (address : IPv4)

/-- The last two octets of an address. -/
def lastOctets : Text := octetText address.c ++ '.' :: octetText address.d

theorem octetText_inj {x y : Fin 256} (h : octetText x = octetText y) : x = y := by
  have hvalue := congrArg (Nat.ofDigitChars 10 · 0) h
  unfold octetText at hvalue
  simp only [Nat.ofDigitChars_ten_toDigits] at hvalue
  exact Fin.ext hvalue

theorem text_inj {address address' : IPv4} (h : address.text = address'.text) :
    address = address' := by
  have hoctets := congrArg (List.splitOn '.') h
  rw [splitOn_text, splitOn_text] at hoctets
  simp only [octets, List.map_cons, List.map_nil, List.cons.injEq, and_true] at hoctets
  obtain ⟨ha, hb, hc, hd⟩ := hoctets
  cases address
  cases address'
  simp only [mk.injEq]
  exact ⟨octetText_inj ha, octetText_inj hb, octetText_inj hc, octetText_inj hd⟩

theorem dot_not_mem_octetText (octet : Fin 256) : '.' ∉ octetText octet :=
  (IPv4.octets_clean ⟨octet, octet, octet, octet⟩ _ (by simp [octets])).1

theorem splitOn_lastOctets :
    address.lastOctets.splitOn '.' = [octetText address.c, octetText address.d] := by
  unfold lastOctets
  rw [List.splitOn_append_cons_self_of_not_mem (dot_not_mem_octetText _),
    List.splitOn_eq_singleton (dot_not_mem_octetText _)]

theorem text_eq : address.text
    = octetText address.a ++ '.' :: (octetText address.b ++ '.' :: address.lastOctets) := by
  simp [text, octets, lastOctets, Text.join, List.intercalate_cons_cons]

/-- No public suffix of the table consists of octets. -/
theorem lastOctets_not_mem : address.lastOctets ∉ kTwoPartTlds := by
  have hletter : ∀ suffix ∈ kTwoPartTlds, suffix.any Char.isAlpha = true := by decide +kernel
  intro hmem
  obtain ⟨c, hc, halpha⟩ := List.any_eq_true.mp (hletter _ hmem)
  have htext : c ∈ address.text := by simp [text_eq, hc]
  rw [address.not_isAlpha_of_mem c htext] at halpha
  cases halpha

theorem registrable_octets :
    registrable address.octets = [octetText address.c, octetText address.d] := by
  have hrev : address.octets.reverse = octetText address.d :: octetText address.c
      :: octetText address.b :: [octetText address.a] := rfl
  rw [registrable_of_reverse hrev]
  exact if_neg address.lastOctets_not_mem

theorem toLower_text : Text.toLower address.text = address.text :=
  (Text.toLower_eq_iff address.not_isAlpha_of_mem).mpr rfl

theorem dropFinalDot_text : Text.dropFinalDot address.text = address.text :=
  Text.dropFinalDot_join address.octets_clean

theorem text_mem_specialHosts : address.text ∈ specialHosts ↔ address = loopback := by
  have hdot : '.' ∈ address.text := by simp [text_eq]
  rw [mem_specialHosts, ← text_loopback]
  constructor
  · rintro (h | h | h)
    · rw [h] at hdot
      exact absurd hdot (by decide)
    · exact text_inj h
    · rw [h] at hdot
      exact absurd hdot (by decide)
  · rintro rfl
    exact Or.inr (Or.inl rfl)

/-- The domain of an address is the address for the loopback address only. -/
theorem getDomain_text : getDomain address.text
    = if address = loopback then address.text else address.lastOctets := by
  have hname : Text.dropFinalDot (Text.toLower address.text) = address.text := by
    rw [toLower_text, dropFinalDot_text]
  split
  · next hloopback =>
    have hspecial := address.text_mem_specialHosts.mpr hloopback
    rw [getDomain_of_special (hname.symm ▸ hspecial), hname]
  · next hother =>
    have hspecial := address.text_mem_specialHosts.not.mpr hother
    rw [getDomain_of_not_special (hname.symm ▸ hspecial), hname, splitOn_text, registrable_octets,
      Text.join_pair]
    simp [lastOctets]

theorem lastOctets_ne_text (address' : IPv4) : address.lastOctets ≠ address'.text := by
  intro h
  have hlength := congrArg (List.length ∘ List.splitOn '.') h
  simp [Function.comp, splitOn_lastOctets, splitOn_text, octets] at hlength

end IPv4

/-! ## The domain of the other host -/

variable {host : Text}

theorem splitOn_join_registrable (name : Text) :
    (Text.join ['.'] (registrable (name.splitOn '.'))).splitOn '.'
      = registrable (name.splitOn '.') := by
  have hsub := (registrable_suffix (name.splitOn '.')).subset
  exact List.splitOn_intercalate '.' (fun l hl => Text.not_mem_of_mem_splitOn (hsub hl))
    (registrable_ne_nil (List.splitOn_ne_nil '.' name))

/-- The domain of a name is the loopback address exactly when the name is. -/
theorem getDomain_eq_text_iff (hlower : Text.toLower host = host) :
    getDomain host = IPv4.loopback.text ↔ Text.dropFinalDot host = IPv4.loopback.text := by
  by_cases hspecial : Text.dropFinalDot (Text.toLower host) ∈ specialHosts
  · rw [getDomain_of_special hspecial, hlower]
  · rw [getDomain_of_not_special hspecial, hlower] at *
    refine iff_of_false (fun h => ?_) fun h => ?_
    · -- a domain has at most three labels, an address four
      have hlength := congrArg (List.length ∘ List.splitOn '.') h
      have hthree := length_registrable_le ((Text.dropFinalDot host).splitOn '.')
      simp only [Function.comp, splitOn_join_registrable, IPv4.splitOn_text] at hlength
      rw [hlength] at hthree
      exact absurd hthree (by simp [IPv4.octets])
    · rw [h] at hspecial
      exact hspecial (IPv4.loopback.text_mem_specialHosts.mpr rfl)

theorem registrable_eq_pair_iff {labels : List Text} {c d : Text}
    (hsuffix : c ++ '.' :: d ∉ kTwoPartTlds) : registrable labels = [c, d]
      ↔ labels = [c, d] ∨ ∃ third rest, labels.reverse = d :: c :: third :: rest := by
  rcases length_le_two_or_reverse labels with htwo | ⟨last, second, third, rest, hrev⟩
  · rw [registrable_eq_self htwo]
    refine (or_iff_left ?_).symm
    rintro ⟨third, rest, hrev⟩
    rw [← List.length_reverse, hrev] at htwo
    simp at htwo
  · have hne : labels ≠ [c, d] := by
      rintro rfl
      simp at hrev
    rw [registrable_of_reverse hrev, or_iff_right hne, hrev]
    split
    · next hmem =>
      -- the domain has a third label, so the last two are others than `c` and `d`
      refine iff_of_false (by simp) ?_
      rintro ⟨third', rest', h⟩
      simp only [List.cons.injEq] at h
      obtain ⟨rfl, rfl, -⟩ := h
      exact hsuffix hmem
    · simp [and_comm]

theorem eq_lastOctets_iff (address : IPv4) {name : Text} : name = address.lastOctets
    ↔ name.splitOn '.' = [IPv4.octetText address.c, IPv4.octetText address.d] := by
  rw [← address.splitOn_lastOctets]
  refine ⟨fun h => by rw [h], fun h => ?_⟩
  have hjoin := congrArg (List.intercalate ['.']) h
  rwa [List.intercalate_splitOn, List.intercalate_splitOn] at hjoin

/-- The domain of a name is the last two octets of an address exactly when the name consists of
them or ends in them. -/
theorem getDomain_eq_lastOctets_iff (address : IPv4) (hlower : Text.toLower host = host) :
    getDomain host = address.lastOctets
      ↔ Text.dropFinalDot host ≠ IPv4.loopback.text
        ∧ (Text.dropFinalDot host = address.lastOctets
          ∨ '.' :: address.lastOctets <:+ Text.dropFinalDot host) := by
  have hsuffix := Text.suffix_iff_reverse_splitOn (s := Text.dropFinalDot host)
    (IPv4.dot_not_mem_octetText address.c) (IPv4.dot_not_mem_octetText address.d)
  by_cases hspecial : Text.dropFinalDot (Text.toLower host) ∈ specialHosts
  · rw [getDomain_of_special hspecial]
    rw [hlower] at hspecial ⊢
    have hdot : '.' ∈ address.lastOctets := by simp [IPv4.lastOctets]
    by_cases hloopback : Text.dropFinalDot host = IPv4.loopback.text
    · rw [hloopback]
      exact iff_of_false (address.lastOctets_ne_text _).symm (by simp)
    · -- the other special hosts are single labels
      have hnodot : '.' ∉ Text.dropFinalDot host := by
        rw [IPv4.text_loopback] at hloopback
        rcases mem_specialHosts.mp hspecial with h | h | h
        · rw [h]
          decide
        · exact absurd h hloopback
        · rw [h]
          decide
      refine iff_of_false (fun h => hnodot (h ▸ hdot)) ?_
      rintro ⟨-, h | h⟩
      · exact hnodot (h ▸ hdot)
      · exact hnodot (h.subset List.mem_cons_self)
  · rw [getDomain_of_not_special hspecial]
    rw [hlower] at hspecial ⊢
    have hloopback : Text.dropFinalDot host ≠ IPv4.loopback.text := fun h =>
      hspecial (h ▸ IPv4.loopback.text_mem_specialHosts.mpr rfl)
    -- both sides in terms of the labels of the name
    rw [eq_lastOctets_iff, splitOn_join_registrable,
      registrable_eq_pair_iff address.lastOctets_not_mem, eq_lastOctets_iff,
      and_iff_right hloopback, ← hsuffix]
    rfl

/-! ## The party relation of an address -/

/-- A host, without a final dot, that has another domain than the address. -/
def OtherDomain (address : IPv4) (name : Text) : Prop :=
  if address = IPv4.loopback then name ≠ address.text
  else name = IPv4.loopback.text
    ∨ name ≠ address.lastOctets ∧ ¬('.' :: address.lastOctets <:+ name)

/-- The domains of an address and of another host differ exactly when the host has another one. -/
theorem getDomain_ne_iff (address : IPv4) (hlower : Text.toLower host = host) :
    getDomain host ≠ getDomain address.text ↔ OtherDomain address (Text.dropFinalDot host) := by
  unfold OtherDomain
  rw [address.getDomain_text]
  by_cases hloopback : address = IPv4.loopback
  · subst hloopback
    rw [if_pos rfl, if_pos rfl, ne_eq, getDomain_eq_text_iff hlower]
  · rw [if_neg hloopback, if_neg hloopback, ne_eq, getDomain_eq_lastOctets_iff address hlower]
    tauto

/-- An address is its own domain only if it is the loopback address. It is a third party to another
host exactly when this is not the loopback address with a final dot, or, for other addresses, when
this is the loopback address or does not end in the last two octets. -/
theorem classify_address_iff (address : IPv4) (host url url' : Text) (hne : host ≠ [])
    (hurl : extractHostname url = address.text) (hurl' : extractHostname url' = host) :
    (getDomain address.text = address.text ↔ address = IPv4.loopback)
      ∧ (classify url url' = .kThirdParty ↔ OtherDomain address (Text.dropFinalDot host))
      ∧ (classify url' url = .kThirdParty ↔ OtherDomain address (Text.dropFinalDot host)) := by
  have hlower : Text.toLower host = host := hurl' ▸ toLower_extractHostname url'
  have htext : address.text ≠ [] := by simp [IPv4.text_eq]
  have hother := getDomain_ne_iff address hlower
  refine ⟨?_, ?_, ?_⟩
  · rw [address.getDomain_text]
    split
    · next hloopback => simp [hloopback]
    · next hloopback => exact iff_of_false (address.lastOctets_ne_text address) hloopback
  · rw [classify_eq_kThirdParty_iff (hurl ▸ htext) (hurl' ▸ hne), hurl, hurl', ne_comm, hother]
  · rw [classify_eq_kThirdParty_iff (hurl' ▸ hne) (hurl ▸ htext), hurl, hurl', hother]

/-- Two private addresses with the same last two octets are one site. -/
theorem private_addresses_same_site :
    classify "http://10.0.0.1/".toList "http://192.168.0.1/".toList = .kSameSite
      ∧ getDomain (IPv4.mk 10 0 0 1).text ≠ (IPv4.mk 10 0 0 1).text := by
  decide +kernel

/-- The router's address and a name that ends in other labels. -/
theorem router_third_party :
    classify "http://192.168.0.1/".toList "http://example.com/".toList = .kThirdParty :=
  (classify_address_iff ⟨192, 168, 0, 1⟩ "example.com".toList _ _ (by decide) (by decide +kernel)
    (by decide +kernel)).2.1.mpr (Or.inr ⟨by decide +kernel, by decide +kernel⟩)

end ThoriumFrugal.Privacy.ThirdPartyClassifier
