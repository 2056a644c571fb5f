/-! Code-point ranges of punctuation and of symbols beyond ASCII, in increasing order. -/
namespace Longform.Text

/-- General categories Pc, Pd, Ps, Pe, Pi, Pf and Po above U+007F. -/
def punctuationRanges : List (Nat × Nat) := [
  (161,161), (167,167), (171,171), (182,183), (187,187), (191,191), (894,894), (903,903),
  (1370,1375), (1417,1418), (1470,1470), (1472,1472), (1475,1475), (1478,1478), (1523,1524), (1545,1546),
  (1548,1549), (1563,1563), (1565,1567), (1642,1645), (1748,1748), (1792,1805), (2039,2041), (2096,2110),
  (2142,2142), (2404,2405), (2416,2416), (2557,2557), (2678,2678), (2800,2800), (3191,3191), (3204,3204),
  (3572,3572), (3663,3663), (3674,3675), (3844,3858), (3860,3860), (3898,3901), (3973,3973), (4048,4052),
  (4057,4058), (4170,4175), (4347,4347), (4960,4968), (5120,5120), (5742,5742), (5787,5788), (5867,5869),
  (5941,5942), (6100,6102), (6104,6106), (6144,6154), (6468,6469), (6686,6687), (6816,6822), (6824,6829),
  (7002,7008), (7037,7038), (7164,7167), (7227,7231), (7294,7295), (7360,7367), (7379,7379), (8208,8231),
  (8240,8259), (8261,8273), (8275,8286), (8317,8318), (8333,8334), (8968,8971), (9001,9002), (10088,10101),
  (10181,10182), (10214,10223), (10627,10648), (10712,10715), (10748,10749), (11513,11516), (11518,11519), (11632,11632),
  (11776,11822), (11824,11855), (11858,11869), (12289,12291), (12296,12305), (12308,12319), (12336,12336), (12349,12349),
  (12448,12448), (12539,12539), (42238,42239), (42509,42511), (42611,42611), (42622,42622), (42738,42743), (43124,43127),
  (43214,43215), (43256,43258), (43260,43260), (43310,43311), (43359,43359), (43457,43469), (43486,43487), (43612,43615),
  (43742,43743), (43760,43761), (44011,44011), (64830,64831), (65040,65049), (65072,65106), (65108,65121), (65123,65123),
  (65128,65128), (65130,65131), (65281,65283), (65285,65290), (65292,65295), (65306,65307), (65311,65312), (65339,65341),
  (65343,65343), (65371,65371), (65373,65373), (65375,65381), (65792,65794), (66463,66463), (66512,66512), (66927,66927),
  (67671,67671), (67871,67871), (67903,67903), (68176,68184), (68223,68223), (68336,68342), (68409,68415), (68505,68508),
  (69293,69293), (69461,69465), (69510,69513), (69703,69709), (69819,69820), (69822,69825), (69952,69955), (70004,70005),
  (70085,70088), (70093,70093), (70107,70107), (70109,70111), (70200,70205), (70313,70313), (70731,70735), (70746,70747),
  (70749,70749), (70854,70854), (71105,71127), (71233,71235), (71264,71276), (71353,71353), (71484,71486), (71739,71739),
  (72004,72006), (72162,72162), (72255,72262), (72346,72348), (72350,72354), (72769,72773), (72816,72817), (73463,73464),
  (73727,73727), (74864,74868), (77809,77810), (92782,92783), (92917,92917), (92983,92987), (92996,92996), (93847,93850),
  (94178,94178), (113823,113823), (121479,121483), (125278,125279)]

/-- General categories Sm, Sc, Sk and So above U+007F. -/
def symbolRanges : List (Nat × Nat) := [
  (162,166), (168,169), (172,172), (174,177), (180,180), (184,184), (215,215), (247,247),
  (706,709), (722,735), (741,747), (749,749), (751,767), (885,885), (900,901), (1014,1014),
  (1154,1154), (1421,1423), (1542,1544), (1547,1547), (1550,1551), (1758,1758), (1769,1769), (1789,1790),
  (2038,2038), (2046,2047), (2184,2184), (2546,2547), (2554,2555), (2801,2801), (2928,2928), (3059,3066),
  (3199,3199), (3407,3407), (3449,3449), (3647,3647), (3841,3843), (3859,3859), (3861,3863), (3866,3871),
  (3892,3892), (3894,3894), (3896,3896), (4030,4037), (4039,4044), (4046,4047), (4053,4056), (4254,4255),
  (5008,5017), (5741,5741), (6107,6107), (6464,6464), (6622,6655), (7009,7018), (7028,7036), (8125,8125),
  (8127,8129), (8141,8143), (8157,8159), (8173,8175), (8189,8190), (8260,8260), (8274,8274), (8314,8316),
  (8330,8332), (8352,8384), (8448,8449), (8451,8454), (8456,8457), (8468,8468), (8470,8472), (8478,8483),
  (8485,8485), (8487,8487), (8489,8489), (8494,8494), (8506,8507), (8512,8516), (8522,8525), (8527,8527),
  (8586,8587), (8592,8967), (8972,9000), (9003,9254), (9280,9290), (9372,9449), (9472,10087), (10132,10180),
  (10183,10213), (10224,10626), (10649,10711), (10716,10747), (10750,11123), (11126,11157), (11159,11263), (11493,11498),
  (11856,11857), (11904,11929), (11931,12019), (12032,12245), (12272,12283), (12292,12292), (12306,12307), (12320,12320),
  (12342,12343), (12350,12351), (12443,12444), (12688,12689), (12694,12703), (12736,12771), (12800,12830), (12842,12871),
  (12880,12880), (12896,12927), (12938,12976), (12992,13311), (19904,19967), (42128,42182), (42752,42774), (42784,42785),
  (42889,42890), (43048,43051), (43062,43065), (43639,43641), (43867,43867), (43882,43883), (64297,64297), (64434,64450),
  (64832,64847), (64975,64975), (65020,65023), (65122,65122), (65124,65126), (65129,65129), (65284,65284), (65291,65291),
  (65308,65310), (65342,65342), (65344,65344), (65372,65372), (65374,65374), (65504,65510), (65512,65518), (65532,65533),
  (65847,65855), (65913,65929), (65932,65934), (65936,65948), (65952,65952), (66000,66044), (67703,67704), (68296,68296),
  (71487,71487), (73685,73713), (92988,92991), (92997,92997), (113820,113820), (118608,118723), (118784,119029), (119040,119078),
  (119081,119140), (119146,119148), (119171,119172), (119180,119209), (119214,119274), (119296,119361), (119365,119365), (119552,119638),
  (120513,120513), (120539,120539), (120571,120571), (120597,120597), (120629,120629), (120655,120655), (120687,120687), (120713,120713),
  (120745,120745), (120771,120771), (120832,121343), (121399,121402), (121453,121460), (121462,121475), (121477,121478), (123215,123215),
  (123647,123647), (126124,126124), (126128,126128), (126254,126254), (126704,126705), (126976,127019), (127024,127123), (127136,127150),
  (127153,127167), (127169,127183), (127185,127221), (127245,127405), (127462,127490), (127504,127547), (127552,127560), (127568,127569),
  (127584,127589), (127744,128727), (128733,128748), (128752,128764), (128768,128883), (128896,128984), (128992,129003), (129008,129008),
  (129024,129035), (129040,129095), (129104,129113), (129120,129159), (129168,129197), (129200,129201), (129280,129619), (129632,129645),
  (129648,129652), (129656,129660), (129664,129670), (129680,129708), (129712,129722), (129728,129733), (129744,129753), (129760,129767),
  (129776,129782), (129792,129938), (129940,129994)]

end Longform.Text
