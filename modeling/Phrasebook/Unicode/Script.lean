/-!
# Scripts and properties of characters

Named sets of code points that are no general categories: the scripts, and the binary properties
characters are listed under. A set is written as its maximal ranges in order; each is the distance
of its first code point from the last one of the range before, followed by `+` and the number of
code points after the first when there are any.
-/

namespace Phrasebook

namespace Unicode

namespace NamedSet

/-- The ranges of a set in words of a table: `last` is the end of the range before, `distance` the
number read so far, and `length` the number read after a plus sign. -/
def readRanges (last distance : Nat) (length : Option Nat) : List Char → List (Nat × Nat)
  | [] => [(last + distance, last + distance + length.getD 0)]
  | c :: rest =>
    if c = ' ' then
      (last + distance, last + distance + length.getD 0) ::
        readRanges (last + distance + length.getD 0) 0 none rest
    else if c = '+' then readRanges last distance (some 0) rest
    else
      match length with
      | none => readRanges last (distance * 10 + (c.toNat - 48)) none rest
      | some n => readRanges last distance (some (n * 10 + (c.toNat - 48))) rest

/-- The scripts, by name. -/
def scripts : List (String × String) := [
  ("Adlam",
    "125184+75 5+9 5+1"),
  ("Ahom",
    "71424+26 3+14 5+22"),
  ("Anatolian_Hieroglyphs",
    "82944+582"),
  ("Arabic",
    "1536+4 2+5 2+13 2+2 2+31 2+9 12+25 2+107 2+33 81+47 241+30 2+1 7+73 2+28 62033+114 " ++
    "17+362 3+79 3+53 8 33+15 113+4 2+134 3940+30 127+2 57089+3 2+26 2+1 2 3 2+9 2+3 2 2 7 " ++
    "5 2 2 2+2 2+1 2 3 2 2 2 2 2+1 2 3+3 2+6 2+3 2+3 2 2+9 2+16 6+2 2+4 2+16 53+1"),
  ("Armenian",
    "1329+37 3+49 3+2 62852+4"),
  ("Avestan",
    "68352+53 4+6"),
  ("Balinese",
    "6912+76 4+46"),
  ("Bamum",
    "42656+87 49417+568"),
  ("Bassa_Vah",
    "92880+29 3+5"),
  ("Batak",
    "7104+51 9+3"),
  ("Bengali",
    "2432+3 2+7 3+1 3+21 2+6 2 4+3 3+8 3+1 3+3 9 5+1 2+4 3+24"),
  ("Bhaiksuki",
    "72704+8 2+44 2+13 11+28"),
  ("Bopomofo",
    "746+1 11802+42 113+31"),
  ("Brahmi",
    "69632+77 5+35 10"),
  ("Braille",
    "10240+255"),
  ("Buginese",
    "6656+27 3+1"),
  ("Buhid",
    "5952+19"),
  ("Canadian_Aboriginal",
    "5120+639 561+69 65979+15"),
  ("Carian",
    "66208+48"),
  ("Caucasian_Albanian",
    "66864+51 12"),
  ("Chakma",
    "69888+52 2+17"),
  ("Cham",
    "43520+54 10+13 3+9 3+3"),
  ("Cherokee",
    "5024+85 3+5 38771+79"),
  ("Chorasmian",
    "69552+27"),
  ("Common",
    "0+64 27+5 27+46 2+14 2+4 24 32 450+38 6+4 3+19 117 10 7 2 638 7 15 4 33 157 517 130+1 " ++
    "1242 406+3 291 1520+2 72+1 204+1 2 1230 14 8+3 2+5 2+2 3 774+11 3+86 2+10 4+10 2+14 " ++
    "18+32 64+37 2+2 3+5 2+26 2+16 42+2 5+662 26+10 22+927 257+627 3+31 2+104 513+93 403+11 " ++
    "5+4 2 2+24 16+7 5+3 92+1 4 91+1 148+15 33+35 61+63 32+80 48 89+167 6593+63 22785+33 " ++
    "103+2 166+9 245 161 396 15+1 20947+1 209+9 23+34 2+18 2+3 148 2+31 27+5 27+10 11 46+1 " ++
    "65+6 2+6 11+4 259+2 5+44 4+8 81+12 52+44 229+26 47525+3 4781+115 61+245 11+38 3+61 " ++
    "4+16 9+1 8+29 5+60 214+19 13+19 13+86 10+24 136+84 2+70 2+1 3 3+1 3+3 2+11 2 2+6 2+64 " ++
    "2+3 3+7 2+6 2+27 2+3 2+4 2 4+6 2+339 3+291 3+49 5234+67 77+60 707+43 5+99 13+14 3+14 " ++
    "2+14 2+36 11+173 57+25 2+1 14+43 5+8 8+1 15+5 155+983 5+16 4+12 4+118 5+94 7+11 5 " ++
    "16+11 5+55 9+9 7+39 9+29 3+1 79+339 13+13 3+12 4+8 8+45 2+6 9+13 5+8 8+8 8+146 2+54 " ++
    "38+9 787464 31+95"),
  ("Coptic",
    "994+13 10385+115 6+6"),
  ("Cuneiform",
    "73728+921 103+110 2+4 12+195"),
  ("Cypriot",
    "67584+5 3 2+43 2+1 4 3"),
  ("Cypro_Minoan",
    "77712+98"),
  ("Cyrillic",
    "1024+132 3+168 5969+8 163 77 4200+31 30785+95 22415+1 57857+61 34"),
  ("Deseret",
    "66560+79"),
  ("Devanagari",
    "2304+80 5+14 3+25 40801+31 29185+9"),
  ("Dives_Akuru",
    "71936+6 3 3+7 2+1 2+29 2+1 3+11 10+9"),
  ("Dogra",
    "71680+59"),
  ("Duployan",
    "113664+106 6+12 4+8 8+9 3+3"),
  ("Egyptian_Hieroglyphs",
    "77824+1109"),
  ("Elbasan",
    "66816+39"),
  ("Elymaic",
    "69600+22"),
  ("Ethiopic",
    "4608+72 2+3 3+6 2 2+3 3+40 2+3 3+32 2+3 3+6 2 2+3 3+14 2+56 2+3 3+66 3+31 4+25 6631+22 " ++
    "10+6 2+6 2+6 2+6 2+6 2+6 2+6 2+6 32035+5 3+5 3+5 10+6 2+6 81074+6 2+3 2+1 2+14"),
  ("Georgian",
    "4256+37 2 6 3+42 2+3 2961+42 3+2 4161+37 2 6"),
  ("Glagolitic",
    "11264+95 111521+6 2+16 3+6 2+1 2+4"),
  ("Gothic",
    "66352+26"),
  ("Grantha",
    "70400+3 2+7 3+1 3+21 2+6 2+1 2+4 3+8 3+1 3+2 3 7 6+6 3+6 4+4"),
  ("Greek",
    "880+3 2+2 3+3 2 5 2 2+2 2 2+19 2+62 15+15 6439+4 51+4 5+4 85 321+21 3+5 3+37 3+5 3+7 2 " ++
    "2 2 2+30 3+52 2+14 2+13 3+5 2+18 3+2 2+8 296 35391 21979+78 18 53344+69"),
  ("Gujarati",
    "2689+2 2+8 2+2 2+21 2+6 2+1 2+4 3+9 2+2 2+2 3 16+3 3+11 8+6"),
  ("Gunjala_Gondi",
    "73056+5 2+1 2+36 2+1 2+5 8+9"),
  ("Gurmukhi",
    "2561+2 2+5 5+1 3+21 2+6 2+1 2+1 2+1 3 2+4 5+1 3+2 4 8+3 2 8+16"),
  ("Han",
    "11904+25 2+88 13+213 48 2 26+8 15+3 965+6591 65+20991 22785+365 3+105 29961+1 13+1 " ++
    "36879+42719 33+4153 7+221 3+5761 15+7472 3104+541 1507+4938 6+4191"),
  ("Hangul",
    "4352+255 7727+1 258+93 114+30 66+30 30434+28 644+11171 13+22 5+48 10149+30 4+5 3+5 3+5 " ++
    "3+2"),
  ("Hanifi_Rohingya",
    "68864+39 9+9"),
  ("Hanunoo",
    "5920+20"),
  ("Hatran",
    "67808+18 2+1 6+4"),
  ("Hebrew",
    "1425+54 9+26 5+5 62761+25 2+4 2 2+1 2+1 2+9"),
  ("Hiragana",
    "12353+85 7+2 98146+286 19 30+2 16558"),
  ("Imperial_Aramaic",
    "67648+21 2+8"),
  ("Inherited",
    "768+111 278+1 453+10 27 737+3 4444+30 514+2 2+12 2+6 5 7 4+1 199+63 525+1 195+32 " ++
    "3898+3 108+1 52582+15 17+13 976 227 4187 48069+45 3+22 545+2 18+7 3+6 31+3 798547+239"),
  ("Inscriptional_Pahlavi",
    "68448+18 6+7"),
  ("Inscriptional_Parthian",
    "68416+21 3+7"),
  ("Javanese",
    "43392+77 3+9 5+1"),
  ("Kaithi",
    "69760+66 11"),
  ("Kannada",
    "3200+12 2+2 2+22 2+9 2+4 3+8 2+2 2+3 8+1 7+1 2+3 3+9 2+2"),
  ("Katakana",
    "12449+89 3+2 241+15 209+46 2+87 52239+9 2+44 45139+3 2+6 2+1 2 288+2 51 15+3"),
  ("Kawi",
    "73472+16 2+40 4+27"),
  ("Kayah_Li",
    "43264+45 2"),
  ("Kharoshthi",
    "68096+3 2+1 6+7 2+2 2+28 3+2 5+9 8+8"),
  ("Khitan_Small_Script",
    "94180 6940+469"),
  ("Khmer",
    "6016+93 3+9 7+9 487+31"),
  ("Khojki",
    "70144+17 2+46"),
  ("Khudawadi",
    "70320+58 6+9"),
  ("Lao",
    "3713+1 2 2+4 2+23 2 2+22 3+4 2 2+6 2+9 3+3"),
  ("Latin",
    "65+25 7+25 48 16 6+22 2+30 2+448 40+4 6684+37 7+48 6+3 6+12 2+69 66+255 370 14 17+12 " ++
    "142+1 7 28 18+40 2776+31 31395+101 4+63 6+1 2 2+4 25+13 817+42 2+8 2+3 20375+6 1051+25 " ++
    "7+25 2086+5 2+41 2+8 55110+30 7+5"),
  ("Lepcha",
    "7168+55 4+14 4+2"),
  ("Limbu",
    "6400+30 2+11 5+11 5 4+11"),
  ("Linear_A",
    "67072+310 10+21 11+7"),
  ("Linear_B",
    "65536+11 2+25 2+18 2+1 2+14 3+13 35+122"),
  ("Lisu",
    "42192+47 31409"),
  ("Lycian",
    "66176+28"),
  ("Lydian",
    "67872+25 6"),
  ("Mahajani",
    "69968+38"),
  ("Makasar",
    "73440+24"),
  ("Malayalam",
    "3328+12 2+2 2+50 2+2 2+5 5+15 3+25"),
  ("Mandaic",
    "2112+27 3"),
  ("Manichaean",
    "68288+38 5+11"),
  ("Marchen",
    "72816+31 3+21 2+13"),
  ("Masaram_Gondi",
    "72960+6 2+1 2+43 4 2+1 2+8 9+9"),
  ("Medefaidrin",
    "93760+90"),
  ("Meetei_Mayek",
    "43744+22 202+45 3+9"),
  ("Mende_Kikakui",
    "124928+196 3+15"),
  ("Meroitic_Cursive",
    "68000+23 5+19 3+45"),
  ("Meroitic_Hieroglyphs",
    "67968+31"),
  ("Miao",
    "93952+74 5+56 8+16"),
  ("Modi",
    "71168+68 12+9"),
  ("Mongolian",
    "6144+1 3 2+19 7+88 8+42 64950+12"),
  ("Mro",
    "92736+30 2+9 5+1"),
  ("Multani",
    "70272+6 2 2+3 2+14 2+10"),
  ("Myanmar",
    "4096+159 39233+30 98+31"),
  ("Nabataean",
    "67712+30 9+8"),
  ("Nag_Mundari",
    "124112+41"),
  ("Nandinagari",
    "72096+7 3+45 3+10"),
  ("New_Tai_Lue",
    "6528+43 5+25 7+10 4+1"),
  ("Newa",
    "70656+91 2+4"),
  ("Nko",
    "1984+58 3+2"),
  ("Nushu",
    "94177 16783+395"),
  ("Nyiakeng_Puachue_Hmong",
    "123136+44 4+13 3+9 5+1"),
  ("Ogham",
    "5760+28"),
  ("Ol_Chiki",
    "7248+47"),
  ("Old_Hungarian",
    "68736+50 14+50 8+5"),
  ("Old_Italic",
    "66304+35 10+2"),
  ("Old_North_Arabian",
    "68224+31"),
  ("Old_Permic",
    "66384+42"),
  ("Old_Persian",
    "66464+35 5+13"),
  ("Old_Sogdian",
    "69376+39"),
  ("Old_South_Arabian",
    "68192+31"),
  ("Old_Turkic",
    "68608+72"),
  ("Old_Uyghur",
    "69488+25"),
  ("Oriya",
    "2817+2 2+7 3+1 3+21 2+6 2+1 2+4 3+8 3+1 3+2 8+2 5+1 2+4 3+17"),
  ("Osage",
    "66736+35 5+35"),
  ("Osmanya",
    "66688+29 3+9"),
  ("Pahawh_Hmong",
    "92928+69 11+9 2+6 2+20 6+18"),
  ("Palmyrene",
    "67680+31"),
  ("Pau_Cin_Hau",
    "72384+56"),
  ("Phags_Pa",
    "43072+55"),
  ("Phoenician",
    "67840+27 4"),
  ("Psalter_Pahlavi",
    "68480+17 8+3 13+6"),
  ("Rejang",
    "43312+35 12"),
  ("Runic",
    "5792+74 4+10"),
  ("Samaritan",
    "2048+45 3+14"),
  ("Saurashtra",
    "43136+69 9+11"),
  ("Sharada",
    "70016+95"),
  ("Shavian",
    "66640+47"),
  ("Siddham",
    "71040+53 3+37"),
  ("SignWriting",
    "120832+651 16+4 2+14"),
  ("Sinhala",
    "3457+2 2+17 4+23 2+8 2 3+6 4 5+5 2 2+7 7+9 3+2 66541+19"),
  ("Sogdian",
    "69424+41"),
  ("Sora_Sompeng",
    "69840+24 8+9"),
  ("Soyombo",
    "72272+82"),
  ("Sundanese",
    "7040+63 257+7"),
  ("Syloti_Nagri",
    "43008+44"),
  ("Syriac",
    "1792+13 2+59 3+2 273+10"),
  ("Tagalog",
    "5888+21 10"),
  ("Tagbanwa",
    "5984+12 2+2 2+1"),
  ("Tai_Le",
    "6480+29 3+4"),
  ("Tai_Tham",
    "6688+62 2+28 3+10 7+9 7+13"),
  ("Tai_Viet",
    "43648+66 25+4"),
  ("Takri",
    "71296+57 7+9"),
  ("Tamil",
    "2946+1 2+5 4+2 2+3 4+1 2 2+1 4+1 4+2 4+11 5+4 4+2 2+3 3 7 15+20 70598+49 14"),
  ("Tangsa",
    "92784+78 2+9"),
  ("Tangut",
    "94176 32+6135 9+767 513+8"),
  ("Telugu",
    "3072+12 2+2 2+22 2+15 3+8 2+2 2+3 8+1 2+2 3 3+3 3+9 8+8"),
  ("Thaana",
    "1920+49"),
  ("Thai",
    "3585+57 6+27"),
  ("Tibetan",
    "3840+71 2+35 5+38 2+35 2+14 2+6 5+1"),
  ("Tifinagh",
    "11568+55 8+1 15"),
  ("Tirhuta",
    "70784+71 9+9"),
  ("Toto",
    "123536+30"),
  ("Ugaritic",
    "66432+29 2"),
  ("Vai",
    "42240+299"),
  ("Vithkuqi",
    "66928+10 2+14 2+6 2+1 2+10 2+14 2+6 2+1"),
  ("Wancho",
    "123584+57 6"),
  ("Warang_Citi",
    "71840+82 13"),
  ("Yezidi",
    "69248+41 2+2 3+1"),
  ("Yi",
    "40960+1164 4+54"),
  ("Zanabazar_Square",
    "72192+71")]

/-- The binary properties, by name. -/
def properties : List (String × String) := [
  ("ASCII_Hex_Digit",
    "48+9 8+5 27+5"),
  ("Bidi_Control",
    "1564 6642+1 27+4 56+3"),
  ("Dash",
    "45 1373 52 3650 1030 2058+5 62 40 16 391 3077 3 32+1 5 29 447 20 112 52625+1 38 11 170 " ++
    "4000"),
  ("Deprecated",
    "329 1322 2308 2 2090+1 2246+5 698+1 908503"),
  ("Diacritic",
    "94 2 72 7 5 3+1 504+158 2+7 6+5 18+1 5 10+1 254+4 210 56+16 2+26 2 2+1 2 135+7 5+1 " ++
    "135+1 5+1 4+2 68+26 92+10 59+10 35+1 127+7 42+9 17+27 62 17 4+3 29 75 17 111 17 111 17 " ++
    "48+2 61 17 8 120 111 17 111 17 110+1 17 125 125+5 2 108 14+4 76+1 28 2 2 5+1 67+2 2+1 " ++
    "63 113 2+1 41+1 5+4 26+6 2 11+1 706+2 949+1 180+10 10 348+2 314+7 3 49+14 3+10 105 16 " ++
    "39+8 55+1 139+1 65+5 83+24 5 7 3+2 51+62 90+11 38+10 446 2+2 12+2 14+2 14+2 14+1 " ++
    "3313+2 318 507+5 106+3 96 30067 13+1 2 29+1 83+1 15+33 103+2 110+1 203 28+17 58+3 37 " ++
    "96 13 37 150+2 66+3 52 101+4 10+2 129+1 20273 770+15 271 2 48 46+1 68 765 1184+5 2+41 " ++
    "2+8 811+1 572+5 470+2 71+10 50+3 193 42 73+1 121+1 63 77 10+2 105+1 179+1 82 17 25+6 " ++
    "4+4 206 4 124+1 252+1 127 119+1 116 270+1 259+1 5 157 84 19 82 422 259 2+1 82 5808+14 " ++
    "13979+4 60+6 1113+16 81+1 16383+3 2+6 2+1 7938+45 3+22 545+2 4+5 9+7 3+6 31+3 3715+61 " ++
    "195+6 376 62+3 1505+6 110+2 2+2"),
  ("Extender",
    "183 537+1 879 442 859 753 128 2372 57 612 399 69 5002 44+4 104+1 94+2 28439 1527 963 " ++
    "23 138 109 22+1 21628 2065+1 3035 617+2 1232 20650+1 1181+1 2 29017+1 2055+2"),
  ("Hex_Digit",
    "48+9 8+5 27+5 65194+9 8+5 27+5"),
  ("Hyphen",
    "45 128 1245 4732 2058+1 3590 740 52584 170 88"),
  ("IDS_Binary_Operator",
    "12272+1 3+7"),
  ("IDS_Trinary_Operator",
    "12274+1"),
  ("Ideographic",
    "12294+1 26+8 15+2 966+6591 65+20991 22785+365 3+105 29963 28+6135 9+1237 43+8 9320+395 " ++
    "19717+42719 33+4153 7+221 3+5761 15+7472 3104+541 1507+4938 6+4191"),
  ("Join_Control",
    "8204+1"),
  ("Logical_Order_Exception",
    "3648+4 124+4 2801+2 3 37115+1 3 2+1"),
  ("Noncharacter_Code_Point",
    "64976+31 527+1 65535+1 65535+1 65535+1 65535+1 65535+1 65535+1 65535+1 65535+1 65535+1 " ++
    "65535+1 65535+1 65535+1 65535+1 65535+1 65535+1 65535+1"),
  ("Other_Alphabetic",
    "1456+13 2 2+1 2+1 2 73+10 49+12 2+6 17 102+6 5+3 3+1 5 36 31+15 103+10 102+1 4+8 2+2 " ++
    "2+3 168+11 4+6 7+19 55+1 3+14 2+1 6+2 11+1 30+2 59+6 3+1 3+1 11 11+1 30+2 59+4 5+1 3+1 " ++
    "5 31+1 4 12+2 59+7 2+2 2+1 22+1 23+2 5+2 59+6 3+1 3+1 10+1 11+1 31 60+4 4+2 2+2 11 " ++
    "41+4 58+6 2+2 2+2 9+1 12+1 30+2 59+6 2+2 2+2 9+1 12+1 16 13+3 59+6 2+2 2+2 11 11+1 " ++
    "30+2 76+5 2 2+7 19+1 62 3+6 19 100 3+5 2+1 17 164+18 10+10 2+35 111+11 2 3+3 24+3 5+2 " ++
    "2+2 3+6 4+3 14+11 2 11+3 1653+1 31+1 31+1 31+1 67+18 189+1 35 119+11 5+8 223+4 58+9 " ++
    "3+19 75+1 12+2 50+4 49+14 61+2 31+8 3+1 58+10 51+18 433+13 1730+51 2295+31 30837+7 " ++
    "35+1 355 9 24+4 89+1 51+15 2 58 39+4 29+11 46+3 49+11 38 68+13 13 9+1 46+2 51 2+2 3+1 " ++
    "6 45+4 6 238+7 20276 2136+4 1671+2 2+1 6+3 789+3 388+1 340+2 54+13 46+1 12+2 46+8 10 " ++
    "62+2 37+11 19+1 58+2 49+12 15+1 93+8 3 7 3 158+9 24+3 59+6 3+1 3+1 11 11+1 210+12 2+2 " ++
    "107+17 238+6 3+6 30+1 83+14 2 107+10 104+13 258+12 248+5 2+1 3+1 4 2 143+6 3+5 5 29+9 " ++
    "43+4 2+3 19+10 47+13 408+7 2+6 84+21 2+13 123+5 4 2+1 2+2 2 4 67+4 2+1 2+3 349+3 10+1 " ++
    "2 49+6 4+2 20495 2+54 8+3 94+1 19629 9058+6 2+16 3+6 2+1 2+4 101 2232 2025+25 7+25 " ++
    "7+25"),
  ("Other_Default_Ignorable_Code_Point",
    "847 3600+1 1620+1 2224 4351 52796 80+8 851976 2+29 97+127 241+3599"),
  ("Other_Grapheme_Extend",
    "2494 25 359 25 103 25 235 19+1 104 25 120 16 3414 1239 4130+1 53103+1 5023 25 345 13 " ++
    "242 897 47157 9+4 798382+95"),
  ("Other_ID_Continue",
    "183 720 4066+8 1641"),
  ("Other_ID_Start",
    "6277+1 2194 22 3949+1"),
  ("Other_Lowercase",
    "170 16 502+8 8+1 31+4 97 53 3458 3120+62 14 35+36 690 14 17+12 212+15 849+25 1939+1 " ++
    "31263+1 211 130+2 4+1 867+3 10 23575 3+2 2+41 2+8 55414+61"),
  ("Other_Math",
    "94 882+2 3 27+1 3+1 7201 28+2 12 33+3 25+1 15+1 66+12 5 4+1 5+4 19 5 3+9 2 4+4 7 4+1 " ++
    "3+1 2+2 2+5 4+3 6+4 76+4 3+3 2+1 2+1 2 2+4 3+1 5+1 5+17 3+1 2 2+6 2 7+1 291+3 169+1 2 " ++
    "25 18 446+1 13+8 6+4 6+1 3+1 4+4 15 2 3+5 25+1 58 2 30+3 10+1 343+1 32+9 404+21 64+3 " ++
    "33+1 54372 2 5 212 2 54466+84 2+70 2+1 3 3+1 3+3 2+11 2 2+6 2+64 2+3 3+7 2+6 2+27 2+3 " ++
    "2+4 2 4+6 2+339 3+24 2+24 2+30 2+24 2+30 2+24 2+30 2+24 2+30 2+24 2+7 3+49 5633+3 2+26 " ++
    "2+1 2 3 2+9 2+3 2 2 7 5 2 2 2+2 2+1 2 3 2 2 2 2 2+1 2 3+3 2+6 2+3 2+3 2 2+9 2+16 6+2 " ++
    "2+4 2+16"),
  ("Other_Uppercase",
    "8544+15 839+25 117857+25 7+25 7+25"),
  ("Pattern_Syntax",
    "33+14 11+6 27+3 2 27+3 35+6 2 2+1 2 2+1 5 5 4 24 32 7961+23 9+14 3+18 2+9 306+719 " ++
    "161+629 31+1131 513+127 386+2 5+24 16 52494+1 262+1"),
  ("Pattern_White_Space",
    "9+4 19 101 8073+1 25+1"),
  ("Prepended_Concatenation_Mark",
    "1536+5 216 50 385+1 81 67547 16"),
  ("Quotation_Mark",
    "34 5 132 16 8029+7 26+1 3592 458+3 14+2 52770+3 190 5 91+1"),
  ("Radical",
    "11904+25 2+88 13+213"),
  ("Regional_Indicator",
    "127462+25"),
  ("STerm",
    "33 13 17 1354 148+2 181 44+2 247 62 2 4+1 294+1 1765+1 791 5+1 774 199+1 205 6 315+1 " ++
    "355+3 175+1 3+1 30+1 189+1 66+1 957+1 10+2 3557 14 23+1 430 29949 271+1 228 4 383+1 " ++
    "87+1 96 153+1 148+2 145+1 250 21095 4+1 170 13 17 66 2805+1 1278+4 45+3 190+1 118+3 " ++
    "128+2 130+1 7 17+1 89+1 2+1 109 418+1 374+1 6+14 106+1 250+2 518 2 252+1 88+1 421+1 " ++
    "693+1 75+1 19242+1 134 66+1 12 852 19975 7657"),
  ("Sentence_Terminal",
    "33 13 17 1354 148+2 181 44+2 247 62 2 4+1 294+1 1765+1 791 5+1 774 199+1 205 6 315+1 " ++
    "355+3 175+1 3+1 30+1 189+1 66+1 957+1 10+2 3557 14 23+1 430 29949 271+1 228 4 383+1 " ++
    "87+1 96 153+1 148+2 145+1 250 21095 4+1 170 13 17 66 2805+1 1278+4 45+3 190+1 118+3 " ++
    "128+2 130+1 7 17+1 89+1 2+1 109 418+1 374+1 6+14 106+1 250+2 518 2 252+1 88+1 421+1 " ++
    "693+1 75+1 19242+1 134 66+1 12 852 19975 7657"),
  ("Soft_Dotted",
    "105+1 197 282 31 53 21 321 99 2 6410 52 14 4 133 158 422 215+1 2867 108454+1 51+1 51+1 " ++
    "51+1 51+1 51+1 51+1 51+1 51+1 51+1 51+1 51+1 51+1 2183 306+1 27"),
  ("Terminal_Punctuation",
    "33 11 2 12+1 4 831 9 514 58 73 15 2+2 181 44+10 2 236+1 55+14 32 262+1 1269+1 173 5+5 " ++
    "312+1 790+7 774 125+2 72+1 158+2 4 40+3 3+1 315+1 355+3 175+1 2+2 30+1 189+4 63+1 " ++
    "957+1 10+2 3557 14 5 11 2+1 4+1 429+1 29948+1 270+2 228+4 383+1 87+1 96 152+2 148+2 " ++
    "128 17+1 250 21093+2 2+3 170 11 2 12+1 4 66 3 1083 49 1159 200 311+1 153+5 69+5 90+3 " ++
    "953+4 45+3 190+6 113+3 128+2 130+1 7 17+1 89+4 109 418+2 13+1 359+3 4+14 106+1 250+2 " ++
    "518 2 252+1 88+1 5+1 415+2 46 646+1 75+1 1324+4 17914+1 134 66+2 11 851+1 19975 7656+3"),
  ("Unified_Ideograph",
    "13312+6591 65+20991 23055+1 2 2+1 11 2 2+1 3+2 67031+42719 33+4153 7+221 3+5761 " ++
    "15+7472 5152+4938 6+4191"),
  ("Variation_Selector",
    "6155+2 2 58865+15 852721+239"),
  ("White_Space",
    "9+4 19 101 27 5600 2432+10 30+1 6 48 4001")]

/-- The ranges of the script or property of this name. -/
def ranges? (name : String) : Option (List (Nat × Nat)) :=
  match properties.lookup name with
  | some text => some (readRanges 0 0 none text.toList)
  | none => (scripts.lookup name).map fun text => readRanges 0 0 none text.toList

end NamedSet

end Unicode

end Phrasebook
