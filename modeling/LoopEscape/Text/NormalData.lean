import LoopEscape.Text.CodeTable

/-!
# Compatibility data for identifiers

The tables behind the compatibility normal form of identifiers, after the Unicode 14 character
database: full compatibility decompositions of the characters an identifier may hold, combining
classes, and the characters that pairs compose to.  Hangul syllables are left out, since arithmetic composes them.
-/

namespace LoopEscape.Text

/-- Entries `range>to`; a range maps onto the equally long range from `to`.  An entry `to` belongs to the
code after that of the entry before.  Behind a `+` stands a combining mark, counted from U+0300. -/
def decompositionText : String :=
  "aa>61 b>3bc 5>6f 6>41+0 +1 +2 +3 +8 +a 2>43+27 45+0 +1 +2 +8 49+0 +1 +2 +8 2>4e+3 4f+0 +1 +2 +3
  +8 3>55+0 +1 +2 +8 59+1 3>61+0 +1 +2 +3 +8 +a 2>63+27 65+0 +1 +2 +8 69+0 +1 +2 +8 2>6e+3 6f+0 +1
  +2 +3 +8 3>75+0 +1 +2 +8 79+1 2>+8 41+4 61+4 41+6 61+6 41+28 61+28 43+1 63+1 43+2 63+2 43+7 63+7
  43+c 63+c 44+c 64+c 3>45+4 65+4 45+6 65+6 45+7 65+7 45+28 65+28 45+c 65+c 47+2 67+2 47+6 67+6
  47+7 67+7 47+27 67+27 48+2 68+2 3>49+3 69+3 49+4 69+4 49+6 69+6 49+28 69+28 49+7 2>49,4a 69,6a
  4a+2 6a+2 4b+27 6b+27 2>4c+1 6c+1 4c+27 6c+27 4c+c 6c+c 4c,b7 6c,b7 3>4e+1 6e+1 4e+27 6e+27 4e+c
  6e+c 2bc,6e 3>4f+4 6f+4 4f+6 6f+6 4f+b 6f+b 3>52+1 72+1 52+27 72+27 52+c 72+c 53+1 73+1 53+2 73+2
  53+27 73+27 53+c 73+c 54+27 74+27 54+c 74+c 3>55+3 75+3 55+4 75+4 55+6 75+6 55+a 75+a 55+b 75+b
  55+28 75+28 57+2 77+2 59+2 79+2 59+8 5a+1 7a+1 5a+7 7a+7 5a+c 7a+c 73 21>4f+1b 6f+1b e>55+1b
  75+1b 14>44,5a+c 44,7a+c 64,7a+c 4c,4a 4c,6a 6c,6a 4e,4a 4e,6a 6e,6a 41+c 61+c 49+c 69+c 4f+c
  6f+c 55+c 75+c 55+8+4 75+8+4 55+8+1 75+8+1 55+8+c 75+8+c 55+8+0 75+8+0 2>41+8+4 61+8+4 41+7+4
  61+7+4 c6+4 e6+4 3>47+c 67+c 4b+c 6b+c 4f+28 6f+28 4f+28+4 6f+28+4 1b7+c 292+c 6a+c 44,5a 44,7a
  64,7a 47+1 67+1 3>4e+0 6e+0 41+a+1 61+a+1 c6+1 e6+1 d8+1 f8+1 41+f 61+f 41+11 61+11 45+f 65+f
  45+11 65+11 49+f 69+f 49+11 69+11 4f+f 6f+f 4f+11 6f+11 52+f 72+f 52+11 72+11 55+f 75+f 55+11
  75+11 53+26 73+26 54+26 74+26 3>48+c 68+c 7>41+7 61+7 45+27 65+27 4f+8+4 6f+8+4 4f+3+4 6f+3+4
  4f+7 6f+7 4f+7+4 6f+7+4 59+4 79+4 7d>68 266 6a 72 279 27b 281 77 79 28>263 6c 73 78 295 5c-1>300
  2>313 308+1 30>2b9 12>391+1 b7 395+1 397+1 399+1 2>39f+1 2>3a5+1 3a9+1 3b9+8+1 1a>399+8 3a5+8
  3b1+1 3b5+1 3b7+1 3b9+1 3c5+8+1 1a>3b9+8 3c5+8 3bf+1 3c5+1 3c9+1 2>3b2 3b8 3a5 +1 +8 3c6 3c0
  1a>3ba 1-1>3c1 2>398 3b5 4>3a3 7>415+0 +8 2>413+1 4>406+8 5>41a+1 418+0 423+6 b>418+6 20>438+6
  17>435+0 +8 2>433+1 4>456+8 5>43a+1 438+0 443+6 18>474+f 475+f 4a>416+6 436+6 e>410+6 430+6 410+8
  430+8 3>415+6 435+6 3>4d8+8 4d9+8 416+8 436+8 417+8 437+8 3>418+4 438+4 418+8 438+8 41e+8 43e+8
  3>4e8+8 4e9+8 42d+8 44d+8 423+4 443+4 423+8 443+8 423+b 443+b 427+8 447+8 3>42b+8 44b+8
  8e>565,582 9b>627,653 627,654 648,654 627,655 64a,654 4f>627,674 648,674 6c7,674 64a,674
  48>6d5,654 2>6c1,654 11>6d2,654 256>928,93c 8>930,93c 3>933,93c 24>915,93c 916,93c 917,93c
  91c,93c 921,93c 922,93c 92b,93c 92f,93c 6c>9c7,9be 9c7,9d7 10>9a1,9bc 9a2,9bc 2>9af,9bc
  54>a32,a3c 3>a38,a3c 23>a16,a3c a17,a3c a1c,a3c 3>a2b,a3c ea>b47,b56 3>b47,b3e b47,b57 10>b21,b3c
  b22,b3c 37>b92,bd7 36>bc6,bbe bc7,bbe bc6,bd7 7c>c46,c56 78>cbf,cd5 7>cc6,cd5 cc6,cd6 2>cc6,cc2
  cc6,cc2,cd5 7f>d46,d3e d47,d3e d46,d57 8e>dd9,dca 2>dd9,dcf dd9,dcf,dca dd9,ddf 55>e4d,e32
  80>ecd,eb2 29>eab,e99 eab,ea1 66>f42,fb7 a>f4c,fb7 5>f51,fb7 5>f56,fb7 5>f5b,fb7 d>f40,fb5
  a>f71,f72 2>f71,f74 fb2,f80 fb2,f71,f80 fb3,f80 fb3,f71,f80 8>f71,f80 12>f92,fb7 a>f9c,fb7
  5>fa1,fb7 5>fa6,fb7 5>fab,fb7 d>f90,fb5 6d>1025,102e d6>10dc a0a>1b05,1b35 2>1b07,1b35
  2>1b09,1b35 2>1b0b,1b35 2>1b0d,1b35 4>1b11,1b35 29>1b3a,1b35 2>1b3c,1b35 3>1b3e,1b35 1b3f,1b35
  2>1b42,1b35 1e9>41 c6 42 2-1>44 18e 1-7>47 2>4f 222 50 52 1-1>54 57 61 1-1>250 1d02 62 1-1>64 259
  1-1>25b 67 2>6b 6d 14b 6f 254 1-1>1d16 70 1-1>74 1d1d 26f 76 1d25 1-2>3b2 1-1>3c6 69 72 1-1>75
  1-1>3b2 3c1 1-1>3c6 e>43d 23>252 63 255 f0 25c 66 25f 261 265 1-2>268 1d7b 29d 26d 1d85 29f 271
  270 1-3>272 278 1-1>282 1ab 1-1>289 1d1c 1-1>28b 7a 1-2>290 3b8 41>41+25 61+25 42+7 62+7 42+23
  62+23 42+31 62+31 43+27+1 63+27+1 44+7 64+7 44+23 64+23 44+31 64+31 44+27 64+27 44+2d 64+2d
  45+4+0 65+4+0 45+4+1 65+4+1 45+2d 65+2d 45+30 65+30 45+27+6 65+27+6 46+7 66+7 47+4 67+4 48+7 68+7
  48+23 68+23 48+8 68+8 48+27 68+27 48+2e 68+2e 49+30 69+30 49+8+1 69+8+1 4b+1 6b+1 4b+23 6b+23
  4b+31 6b+31 4c+23 6c+23 4c+23+4 6c+23+4 4c+31 6c+31 4c+2d 6c+2d 4d+1 6d+1 4d+7 6d+7 4d+23 6d+23
  4e+7 6e+7 4e+23 6e+23 4e+31 6e+31 4e+2d 6e+2d 4f+3+1 6f+3+1 4f+3+8 6f+3+8 4f+4+0 6f+4+0 4f+4+1
  6f+4+1 50+1 70+1 50+7 70+7 52+7 72+7 52+23 72+23 52+23+4 72+23+4 52+31 72+31 53+7 73+7 53+23
  73+23 53+1+7 73+1+7 53+c+7 73+c+7 53+23+7 73+23+7 54+7 74+7 54+23 74+23 54+31 74+31 54+2d 74+2d
  55+24 75+24 55+30 75+30 55+2d 75+2d 55+3+1 75+3+1 55+4+8 75+4+8 56+3 76+3 56+23 76+23 57+0 77+0
  57+1 77+1 57+8 77+8 57+7 77+7 57+23 77+23 58+7 78+7 58+8 78+8 59+7 79+7 5a+2 7a+2 5a+23 7a+23
  5a+31 7a+31 68+31 74+8 77+a 79+a 61,2be 73+7 5>41+23 61+23 41+9 61+9 41+2+1 61+2+1 41+2+0 61+2+0
  41+2+9 61+2+9 41+2+3 61+2+3 41+23+2 61+23+2 41+6+1 61+6+1 41+6+0 61+6+0 41+6+9 61+6+9 41+6+3
  61+6+3 41+23+6 61+23+6 45+23 65+23 45+9 65+9 45+3 65+3 45+2+1 65+2+1 45+2+0 65+2+0 45+2+9 65+2+9
  45+2+3 65+2+3 45+23+2 65+23+2 49+9 69+9 49+23 69+23 4f+23 6f+23 4f+9 6f+9 4f+2+1 6f+2+1 4f+2+0
  6f+2+0 4f+2+9 6f+2+9 4f+2+3 6f+2+3 4f+23+2 6f+23+2 4f+1b+1 6f+1b+1 4f+1b+0 6f+1b+0 4f+1b+9
  6f+1b+9 4f+1b+3 6f+1b+3 4f+1b+23 6f+1b+23 55+23 75+23 55+9 75+9 55+1b+1 75+1b+1 55+1b+0 75+1b+0
  55+1b+9 75+1b+9 55+1b+3 75+1b+3 55+1b+23 75+1b+23 59+0 79+0 59+23 79+23 59+9 79+9 59+3 79+3
  7>3b1+13 +14 +13+0 +14+0 +13+1 +14+1 +13+42 +14+42 391+13 +14 +13+0 +14+0 +13+1 +14+1 +13+42
  +14+42 3b5+13 +14 +13+0 +14+0 +13+1 +14+1 3>395+13 +14 +13+0 +14+0 +13+1 +14+1 3>3b7+13 +14 +13+0
  +14+0 +13+1 +14+1 +13+42 +14+42 397+13 +14 +13+0 +14+0 +13+1 +14+1 +13+42 +14+42 3b9+13 +14 +13+0
  +14+0 +13+1 +14+1 +13+42 +14+42 399+13 +14 +13+0 +14+0 +13+1 +14+1 +13+42 +14+42 3bf+13 +14 +13+0
  +14+0 +13+1 +14+1 3>39f+13 +14 +13+0 +14+0 +13+1 +14+1 3>3c5+13 +14 +13+0 +14+0 +13+1 +14+1
  +13+42 +14+42 2>3a5+14 2>+14+0 2>+14+1 2>+14+42 3c9+13 +14 +13+0 +14+0 +13+1 +14+1 +13+42 +14+42
  3a9+13 +14 +13+0 +14+0 +13+1 +14+1 +13+42 +14+42 3b1+0 +1 3b5+0 +1 3b7+0 +1 3b9+0 +1 3bf+0 +1
  3c5+0 +1 3c9+0 +1 3>3b1+13+45 +14+45 +13+0+45 +14+0+45 +13+1+45 +14+1+45 +13+42+45 +14+42+45
  391+13+45 +14+45 +13+0+45 +14+0+45 +13+1+45 +14+1+45 +13+42+45 +14+42+45 3b7+13+45 +14+45
  +13+0+45 +14+0+45 +13+1+45 +14+1+45 +13+42+45 +14+42+45 397+13+45 +14+45 +13+0+45 +14+0+45
  +13+1+45 +14+1+45 +13+42+45 +14+42+45 3c9+13+45 +14+45 +13+0+45 +14+0+45 +13+1+45 +14+1+45
  +13+42+45 +14+42+45 3a9+13+45 +14+45 +13+0+45 +14+0+45 +13+1+45 +14+1+45 +13+42+45 +14+42+45
  3b1+6 +4 +0+45 +45 +1+45 2>+42 +42+45 391+6 +4 +0 +1 +45 2>3b9 4>3b7+0+45 +45 +1+45 2>+42 +42+45
  395+0 +1 397+0 +1 +45 4>3b9+6 +4 +8+0 +8+1 3>+42 +8+42 399+6 +4 +0 +1 5>3c5+6 +4 +8+0 +8+1 3c1+13
  +14 3c5+42 +8+42 3a5+6 +4 +0 +1 3a1+14 6>3c9+0+45 +45 +1+45 2>+42 +42+45 39f+0 +1 3a9+0 +1 +45
  75>69 e>6e 11>61 65 6f 78 259 68 1-3>6b 70 1-1>73 66>43 5>190 3>67 48 48 48 68 127 49 49 4c 6c
  2>4e 4-2>50 52 52 7>5a 2>3a9 2>5a 2>4b 41+a 1-1>42 2>65 1-1>45 2>4d 6f 1-3>5d0 69 3>3c0 3b3 393
  3a0 6>44 1-1>64 1-1>69 17>49 49,49 49,49,49 49,56 56 56,49 56,49,49 56,49,49,49 49,58 58 58,49
  58,49,49 4c 1-1>43 4d 69 69,69 69,69,69 69,76 76 76,69 76,69,69 76,69,69,69 69,78 78 78,69
  78,69,69 6c 1-1>63 6d afd>6a 56 f2>2d61 2c9>5341 1-1>5344 12>304b,3099 2>304d,3099 2>304f,3099
  2>3051,3099 2>3053,3099 2>3055,3099 2>3057,3099 2>3059,3099 2>305b,3099 2>305d,3099 2>305f,3099
  2>3061,3099 3>3064,3099 2>3066,3099 2>3068,3099 7>306f,3099 306f,309a 2>3072,3099 3072,309a
  2>3075,3099 3075,309a 2>3078,3099 3078,309a 2>307b,3099 307b,309a 17>3046,3099 a>309d,3099
  3088,308a d>30ab,3099 2>30ad,3099 2>30af,3099 2>30b1,3099 2>30b3,3099 2>30b5,3099 2>30b7,3099
  2>30b9,3099 2>30bb,3099 2>30bd,3099 2>30bf,3099 2>30c1,3099 3>30c4,3099 2>30c6,3099 2>30c8,3099
  7>30cf,3099 30cf,309a 2>30d2,3099 30d2,309a 2>30d5,3099 30d5,309a 2>30d8,3099 30d8,309a
  2>30db,3099 30db,309a 17>30a6,3099 3>30ef,3099 30f0,3099 30f1,3099 30f2,3099 4>30fd,3099
  30b3,30c8 32-1>1100 11aa 1102 1-1>11ac 1-2>1103 1-5>11b0 111a 1-2>1106 1121 1-9>1109 1-14>1161
  1160 1-1>1114 1-1>11c7 11cc 11ce 11d3 11d7 11d9 111c 11dd 11df 1-1>111d 1120 1-1>1122 1127 1129
  1-4>112b 1132 1136 1140 1147 114c 1-1>11f1 1-2>1157 1-1>1184 1188 1-1>1191 1194 119e 11a1
  750e>44a 44c d3>a76f 82>43 46 51 4>126 153 363>a727 ab37 26b ab52 a>28d 4d97>8c48 66f4 8eca 8cc8
  6ed1 4e32 53e5 9f9c 9f9c 5951 91d1 5587 5948 61f6 7669 7f85 863f 87ba 88f8 908f 6a02 6d1b 70d9
  73de 843d 916a 99f1 4e82 5375 6b04 721b 862d 9e1e 5d50 6feb 85cd 8964 62c9 81d8 881f 5eca 6717
  6d6a 72fc 90ce 4f86 51b7 52de 64c4 6ad3 7210 76e7 8001 8606 865c 8def 9732 9b6f 9dfa 788c 797f
  7da0 83c9 9304 9e7f 8ad6 58df 5f04 7c60 807e 7262 78ca 8cc2 96f7 58d8 5c62 6a13 6dda 6f0f 7d2f
  7e37 964b 52d2 808b 51dc 51cc 7a1c 7dbe 83f1 9675 8b80 62cf 6a02 8afe 4e39 5be7 6012 7387 7570
  5317 78fb 4fbf 5fa9 4e0d 6ccc 6578 7d22 53c3 585e 7701 8449 8aaa 6bba 8fb0 6c88 62fe 82e5 63a0
  7565 4eae 5169 51c9 6881 7ce7 826f 8ad2 91cf 52f5 5442 5973 5eec 65c5 6ffe 792a 95ad 9a6a 9e97
  9ece 529b 66c6 6b77 8f62 5e74 6190 6200 649a 6f23 7149 7489 79ca 7df4 806f 8f26 84ee 9023 934a
  5217 52a3 54bd 70c8 88c2 8aaa 5ec9 5ff5 637b 6bae 7c3e 7375 4ee4 56f9 5be7 5dba 601c 73b2 7469
  7f9a 8046 9234 96f6 9748 9818 4f8b 79ae 91b4 96b8 60e1 4e86 50da 5bee 5c3f 6599 6a02 71ce 7642
  84fc 907c 9f8d 6688 962e 5289 677b 67f3 6d41 6e9c 7409 7559 786b 7d10 985e 516d 622e 9678 502b
  5d19 6dea 8f2a 5f8b 6144 6817 7387 9686 5229 540f 5c65 6613 674e 68a8 6ce5 7406 75e2 7f79 88cf
  88e1 91cc 96e2 533f 6eba 541d 71d0 7498 85fa 96a3 9c57 9e9f 6797 6dcb 81e8 7acb 7b20 7c92 72c0
  7099 8b58 4ec0 8336 523a 5207 5ea6 62d3 7cd6 5b85 6d1e 66b4 8f3b 884c 964d 898b 5ed3 5140 55c0
  3>585a 2>6674 3>51de 732a 76ca 793c 795e 7965 798f 9756 7cbe 7fbd 2>8612 2>8af8 3>9038 90fd
  4>98ef 98fc 9928 9db4 90de 96b7 4fae 50e7 514d 52c9 52e4 5351 559d 5606 5668 5840 58a8 5c64 5c6e
  6094 6168 618e 61f2 654f 65e2 6691 6885 6d77 6e1a 6f22 716e 722b 7422 7891 793e 7949 7948 7950
  7956 795d 1-1>798d 7a40 7a81 7bc0 7df4 7e09 7e41 7f72 8005 81ed 8279 8279 8457 8910 8996 8b01
  8b39 8cd3 8d08 8fb6 9038 96e3 97ff 983b 6075 242ee 8218 3>4e26 51b5 5168 4f80 5145 5180 52c7 52fa
  559d 5555 5599 55e2 585a 58b3 5944 5954 5a62 5b28 5ed2 5ed9 5f69 5fad 60d8 614e 6108 618e 6160
  61f2 6234 63c4 641c 6452 6556 6674 6717 671b 6756 6b79 6bba 6d41 6edb 6ecb 6f22 701e 716e 77a7
  7235 72af 732a 7471 7506 753b 761d 761f 76ca 76db 76f4 774a 7740 78cc 7ab1 7bc0 7c7b 7d5b 7df4
  7f3e 8005 8352 83ef 8779 8941 8986 8996 8abf 8af8 8acb 8b01 8afe 8aed 8b39 8b8a 8d08 8f38 9072
  9199 9276 967c 96e3 9756 97db 97ff 980b 983b 9b12 9f9c 2284a 22844 233d5 3b9d 4018 4039 25249
  25cd0 27ed3 9f43 9f8e 27>66,66 66,69 66,6c 66,66,69 66,66,6c 73,74 73,74 d>574,576 574,565
  574,56b 57e,576 574,56d 6>5d9,5b4 2>5f2,5b7 5e2 5d0 1-1>5d3 1-2>5db 5e8 5ea 2>5e9,5c1 5e9,5c2
  5e9,5bc,5c1 5e9,5bc,5c2 5d0,5b7 5d0,5b8 5d0,5bc 5d1,5bc 5d2,5bc 5d3,5bc 5d4,5bc 5d5,5bc 5d6,5bc
  2>5d8,5bc 5d9,5bc 5da,5bc 5db,5bc 5dc,5bc 2>5de,5bc 2>5e0,5bc 5e1,5bc 2>5e3,5bc 5e4,5bc 2>5e6,5bc
  5e7,5bc 5e8,5bc 5e9,5bc 5ea,5bc 5d5,5b9 5d1,5bf 5db,5bf 5e4,5bf 5d0,5dc 671 671 67b 67b 67b 67b
  67e 67e 67e 67e 680 680 680 680 67a 67a 67a 67a 67f 67f 67f 67f 679 679 679 679 6a4 6a4 6a4 6a4
  6a6 6a6 6a6 6a6 684 684 684 684 683 683 683 683 686 686 686 1-1>686 687 687 687 68d 68d 68c 68c
  68e 68e 688 688 698 698 691 691 6a9 6a9 6a9 6a9 6af 6af 6af 6af 6b3 6b3 6b3 6b3 6b1 6b1 6b1 6b1
  6ba 1-1>6ba 6bb 6bb 6bb 6d5,654 6d5,654 6c1 6c1 6c1 6c1 6be 6be 6be 6be 6d2 6d2 6d2,654 6d2,654
  22>6ad 6ad 6ad 6ad 6c7 6c7 6c6 6c6 6c8 6c8 6c7,674 6cb 6cb 6c5 6c5 6c9 6c9 6d0 6d0 6d0 6d0 649
  649 64a,654,627 64a,654,627 64a,654,6d5 64a,654,6d5 64a,654,648 64a,654,648 64a,654,6c7
  64a,654,6c7 64a,654,6c6 64a,654,6c6 64a,654,6c8 64a,654,6c8 64a,654,6d0 64a,654,6d0 64a,654,6d0
  64a,654,649 64a,654,649 64a,654,649 6cc 6cc 6cc 6cc 64a,654,62c 64a,654,62d 64a,654,645
  64a,654,649 64a,654,64a 628,62c 628,62d 628,62e 628,645 628,649 628,64a 62a,62c 62a,62d 62a,62e
  62a,645 62a,649 62a,64a 62b,62c 62b,645 62b,649 62b,64a 62c,62d 62c,645 62d,62c 62d,645 62e,62c
  62e,62d 62e,645 633,62c 633,62d 633,62e 633,645 635,62d 635,645 636,62c 636,62d 636,62e 636,645
  637,62d 637,645 638,645 639,62c 639,645 63a,62c 63a,645 641,62c 641,62d 641,62e 641,645 641,649
  641,64a 642,62d 642,645 642,649 642,64a 643,627 643,62c 643,62d 643,62e 643,644 643,645 643,649
  643,64a 644,62c 644,62d 644,62e 644,645 644,649 644,64a 645,62c 645,62d 645,62e 645,645 645,649
  645,64a 646,62c 646,62d 646,62e 646,645 646,649 646,64a 647,62c 647,645 647,649 647,64a 64a,62c
  64a,62d 64a,62e 64a,645 64a,649 64a,64a 630,670 631,670 649,670 7>64a,654,631 64a,654,632
  64a,654,645 64a,654,646 64a,654,649 64a,654,64a 628,631 628,632 628,645 628,646 628,649 628,64a
  62a,631 62a,632 62a,645 62a,646 62a,649 62a,64a 62b,631 62b,632 62b,645 62b,646 62b,649 62b,64a
  641,649 641,64a 642,649 642,64a 643,627 643,644 643,645 643,649 643,64a 644,645 644,649 644,64a
  645,627 645,645 646,631 646,632 646,645 646,646 646,649 646,64a 649,670 64a,631 64a,632 64a,645
  64a,646 64a,649 64a,64a 64a,654,62c 64a,654,62d 64a,654,62e 64a,654,645 64a,654,647 628,62c
  628,62d 628,62e 628,645 628,647 62a,62c 62a,62d 62a,62e 62a,645 62a,647 62b,645 62c,62d 62c,645
  62d,62c 62d,645 62e,62c 62e,645 633,62c 633,62d 633,62e 633,645 635,62d 635,62e 635,645 636,62c
  636,62d 636,62e 636,645 637,62d 638,645 639,62c 639,645 63a,62c 63a,645 641,62c 641,62d 641,62e
  641,645 642,62d 642,645 643,62c 643,62d 643,62e 643,644 643,645 644,62c 644,62d 644,62e 644,645
  644,647 645,62c 645,62d 645,62e 645,645 646,62c 646,62d 646,62e 646,645 646,647 647,62c 647,645
  647,670 64a,62c 64a,62d 64a,62e 64a,645 64a,647 64a,654,645 64a,654,647 628,645 628,647 62a,645
  62a,647 62b,645 62b,647 633,645 633,647 634,645 634,647 643,644 643,645 644,645 646,645 646,647
  64a,645 64a,647 640,64e,651 640,64f,651 640,650,651 637,649 637,64a 639,649 639,64a 63a,649
  63a,64a 633,649 633,64a 634,649 634,64a 62d,649 62d,64a 62c,649 62c,64a 62e,649 62e,64a 635,649
  635,64a 636,649 636,64a 634,62c 634,62d 634,62e 634,645 634,631 633,631 635,631 636,631 637,649
  637,64a 639,649 639,64a 63a,649 63a,64a 633,649 633,64a 634,649 634,64a 62d,649 62d,64a 62c,649
  62c,64a 62e,649 62e,64a 635,649 635,64a 636,649 636,64a 634,62c 634,62d 634,62e 634,645 634,631
  633,631 635,631 636,631 634,62c 634,62d 634,62e 634,645 633,647 634,647 637,645 633,62c 633,62d
  633,62e 634,62c 634,62d 634,62e 637,645 638,645 627,64b 627,64b 13>62a,62c,645 62a,62d,62c
  62a,62d,62c 62a,62d,645 62a,62e,645 62a,645,62c 62a,645,62d 62a,645,62e 62c,645,62d 62c,645,62d
  62d,645,64a 62d,645,649 633,62d,62c 633,62c,62d 633,62c,649 633,645,62d 633,645,62d 633,645,62c
  633,645,645 633,645,645 635,62d,62d 635,62d,62d 635,645,645 634,62d,645 634,62d,645 634,62c,64a
  634,645,62e 634,645,62e 634,645,645 634,645,645 636,62d,649 636,62e,645 636,62e,645 637,645,62d
  637,645,62d 637,645,645 637,645,64a 639,62c,645 639,645,645 639,645,645 639,645,649 63a,645,645
  63a,645,64a 63a,645,649 641,62e,645 641,62e,645 642,645,62d 642,645,645 644,62d,645 644,62d,64a
  644,62d,649 644,62c,62c 644,62c,62c 644,62e,645 644,62e,645 644,645,62d 644,645,62d 645,62d,62c
  645,62d,645 645,62d,64a 645,62c,62d 645,62c,645 645,62e,62c 645,62e,645 3>645,62c,62e 647,645,62c
  647,645,645 646,62d,645 646,62d,649 646,62c,645 646,62c,645 646,62c,649 646,645,64a 646,645,649
  64a,645,645 64a,645,645 628,62e,64a 62a,62c,64a 62a,62c,649 62a,62e,64a 62a,62e,649 62a,645,64a
  62a,645,649 62c,645,64a 62c,62d,649 62c,645,649 633,62e,649 635,62d,64a 634,62d,64a 636,62d,64a
  644,62c,64a 644,645,64a 64a,62d,64a 64a,62c,64a 64a,645,64a 645,645,64a 642,645,64a 646,62d,64a
  642,645,62d 644,62d,645 639,645,64a 643,645,64a 646,62c,62d 645,62e,64a 644,62c,645 643,645,645
  644,62c,645 646,62c,62d 62c,62d,64a 62d,62c,64a 645,62c,64a 641,645,64a 628,62d,64a 643,645,645
  639,62c,645 635,645,645 633,62e,64a 646,62c,64a 29>635,644,6d2 642,644,6d2 627,644,644,647
  627,643,628,631 645,62d,645,62f 635,644,639,645 631,633,648,644 639,644,64a,647 648,633,644,645
  635,644,649 3a>5f 5f 19>5f 5f 5f 22>640,64b 6>640,64e 2>640,64f 2>640,650 2>640,651 2>640,652 621
  627,653 627,653 627,654 627,654 648,654 648,654 627,655 627,655 64a,654 64a,654 64a,654 64a,654
  627 1-1>627 628 628 1-1>628 1-1>629 62a 62a 1-1>62a 62b 62b 1-1>62b 62c 62c 1-1>62c 62d 62d
  1-1>62d 62e 62e 1-1>62e 1-1>62f 1-1>630 1-1>631 1-1>632 633 633 1-1>633 634 634 1-1>634 635 635
  1-1>635 636 636 1-1>636 637 637 1-1>637 638 638 1-1>638 639 639 1-1>639 63a 63a 63a 641 641 641
  1-1>641 642 642 1-1>642 643 643 1-1>643 644 644 1-1>644 645 645 1-1>645 646 646 1-1>646 647 647
  1-1>647 1-1>648 1-1>649 64a 64a 64a 644,627,653 644,627,653 644,627,654 644,627,654 644,627,655
  644,627,655 644,627 644,627 14-9>30 8-19>41 5>5f 2-19>61 c>30f2 30a1 30a3 30a5 30a7 30a9 30e3
  30e5 30e7 30c3 30fc 30a2 30a4 30a6 30a8 1-1>30aa 30ad 30af 30b1 30b3 30b5 30b7 30b9 30bb 30bd
  30bf 30c1 30c4 30c6 30c8 1-5>30ca 30d2 30d5 30d8 30db 1-4>30de 30e4 30e6 1-5>30e8 30ef 30f3
  1-1>3099 1160 1-1>1100 11aa 1102 1-1>11ac 1-2>1103 1-5>11b0 111a 1-2>1106 1121 1-9>1109 4-5>1161
  3-5>1167 3-5>116d 3-2>1173 7a5-1>2d0 e6 299 253 2>2a3 ab66 2a5 2a4 1-1>256 1d91 258 25e 2a9 264
  262 260 29b 127 29c 267 284 1-1>2aa 26c 1df04 a78e 26e 1df05 28e 1df06 f8 1-1>276 71 27a 1df08
  1-1>27d 280 2a8 2a6 ab67 2a7 288 2c71 2>28f 1-1>2a1 298 1-2>1c0 1df0a 1df1e 8e0>11099,110ba
  2>1109b,110ba f>110a5,110ba 83>11131,11127 11132,11127 21c>11347,1133e 11347,11357
  16f>114b9,114ba 114b9,114b0 2>114b9,114bd fc>115b8,115af 115b9,115af 37d>11935,11930 bac8-19>41
  1-19>61 1-19>41 1-6>61 2-11>69 1-19>41 1-19>61 41 2-1>43 3>47 3-1>4a 3-3>4e 2-7>53 1-3>61 2>66
  2-6>68 2-a>70 1-19>41 1-19>61 1-1>41 2-3>44 3-7>4a 2-6>53 2-19>61 1-1>41 2-3>44 2-4>49 2>4f
  4-6>53 2-19>61 1-19>41 1-19>61 1-19>41 1-19>61 1-19>41 1-19>61 1-19>41 1-19>61 1-19>41 1-19>61
  1-19>41 1-19>61 131 237 3-10>391 398 1-6>3a3 2-18>3b1 2>3b5 3b8 3ba 3c6 3c1 3c0 1-10>391 398
  1-6>3a3 2-18>3b1 2>3b5 3b8 3ba 3c6 3c1 3c0 1-10>391 398 1-6>3a3 2-18>3b1 2>3b5 3b8 3ba 3c6 3c1
  3c0 1-10>391 398 1-6>3a3 2-18>3b1 2>3b5 3b8 3ba 3c6 3c1 3c0 1-10>391 398 1-6>3a3 2-18>3b1 2>3b5
  3b8 3ba 3c6 3c1 3c0 1-1>3dc 3-9>30 1-9>30 1-9>30 1-9>30 1-9>30 1601-1>627 62c 62f 2>648 632 62d
  637 64a 1-3>643 633 639 641 635 642 631 634 1-1>62a 62e 630 636 638 63a 66e 6ba 6a1 66f 2>628 62c
  2>647 3>62d 2>64a 1-3>643 633 639 641 635 642 2>634 1-1>62a 62e 2>636 2>63a 7>62c 5>62d 2>64a
  2>644 2>646 633 639 2>635 642 2>634 3>62e 2>636 2>63a 2>6ba 2>66f 2>628 62c 2>647 3>62d 637 64a
  643 2-1>645 633 639 641 635 642 2>634 1-1>62a 62e 2>636 638 63a 66e 2>6a1 2-1>627 62c 62f 1-1>647
  632 62d 637 64a 2-2>644 633 639 641 635 642 631 634 1-1>62a 62e 630 636 638 63a 6>628 62c 62f
  2>648 632 62d 637 64a 2-2>644 633 639 641 635 642 631 634 1-1>62a 62e 630 636 638 63a d35-9>30
  fc07>4e3d 4e38 4e41 20122 4f60 4fae 4fbb 5002 507a 5099 50e7 50cf 349e 2063a 514d 5154 5164 5177
  2051c 34b9 5167 518d 2054b 5197 51a4 4ecc 51ac 51b5 291df 51f5 5203 34df 523b 5246 5272 5277 3515
  52c7 52c9 52e4 52fa 1-1>5305 5317 5349 5351 535a 5373 537d 537f 537f 537f 20a2c 7070 53ca 53df
  20b63 53eb 53f1 5406 549e 5438 5448 5468 54a2 54f6 5510 5553 5563 5584 5584 5599 55ab 55b3 55c2
  5716 5606 5717 5651 5674 5207 58ee 57ce 57f4 580d 578b 5832 5831 58ac 214e4 58f2 58f7 5906 591a
  5922 5962 216a8 216ea 59ec 5a1b 5a27 59d8 5a66 36ee 36fc 5b08 5b3e 5b3e 219c8 5bc3 5bd8 5be7 5bf3
  21b18 5bff 5c06 5f53 5c22 3781 5c60 5c6e 5cc0 5c8d 21de4 5d43 21de6 5d6e 5d6b 5d7c 1-1>5de1 382f
  5dfd 5e28 5e3d 5e69 3862 22183 387c 5eb0 5eb3 5eb6 5eca 2a392 5efe 22331 22331 8201 5f22 5f22
  38c7 232b8 261da 5f62 5f6b 38e3 5f9a 5fcd 5fd7 5ff9 6081 393a 391c 6094 226d4 60c7 6148 614c 614e
  614c 617a 618e 61b2 61a4 61af 61de 61f2 61f6 6210 621b 625d 62b1 62d4 6350 22b0c 633d 62fc 6368
  6383 63e4 22bf1 6422 63c5 63a9 3a2e 6469 647e 649d 6477 3a6c 654f 656c 2300a 65e3 66f8 6649 3b19
  6691 3b08 3ae4 5192 5195 6700 669c 80ad 43d9 6717 671b 6721 675e 6753 233c3 3b49 67fa 6785 6852
  6885 2346d 688e 681f 6914 3b9d 6942 69a3 69ea 6aa8 236a3 6adb 3c18 6b21 238a7 6b54 3c4e 6b72 6b9f
  1-1>6bba 23a8d 21d0b 23afa 6c4e 23cbc 6cbf 6ccd 6c67 6d16 6d3e 6d77 6d41 6d69 6d78 6d85 23d1e
  6d34 6e2f 6e6e 3d33 6ecb 6ec7 23ed1 6df9 6f6e 23f5e 23f8e 6fc6 7039 701e 701b 3d96 704a 707d 7077
  70ad 20525 7145 24263 719c 243ab 7228 7235 7250 24608 7280 7295 24735 24814 737a 738b 3eac 73a5
  3eb8 3eb8 7447 745c 7471 7485 74ca 3f1b 7524 24c36 753e 24c92 7570 2219f 7610 24fa1 24fb8 25044
  3ffc 4008 76f4 250f3 250f2 25119 25133 1-1>771e 771f 774a 4039 778b 4046 4096 2541d 784e 788c
  78cc 40e3 25626 7956 2569a 256c5 798f 79eb 412f 7a40 7a4a 7a4f 2597c 25aa7 25aa7 7aee 4202 25bab
  7bc6 7bc9 4227 25c80 7cd2 42a0 7ce8 7ce3 7d00 25f86 7d63 4301 7dc7 7e02 7e45 4334 26228 26247
  4359 262d9 7f7a 2633e 7f95 7ffa 8005 264da 26523 8060 265a8 8070 2335f 43d5 80b2 8103 440b 813e
  5ab5 267a7 267b5 23393 2339c 8201 8204 8f9e 446b 8291 828b 829d 52b3 82b1 82b3 82bd 82e6 26b3c
  82e5 831d 8363 83ad 8323 83bd 83e7 8457 8353 83ca 83cc 83dc 26c36 26d6b 26cd5 452b 84f1 84f3 8516
  273ca 8564 26f2c 455d 4561 26fb1 270d2 456b 8650 865c 8667 8669 86a9 8688 870e 86e2 8779 8728
  876b 8786 45d7 87e1 8801 45f9 8860 8863 27667 88d7 88de 4635 88fa 34bb 278ae 27966 46be 46c7 8aa0
  8aed 8b8a 8c55 27ca8 8cab 8cc1 8d1b 8d77 27f2f 20804 8dcb 8dbc 8df0 208de 8ed4 8f38 285d2 285ed
  9094 90f1 9111 2872e 911b 9238 1-1>92d7 927c 93f9 9415 28bfa 958b 4995 95b7 28d77 49e6 96c3 5db2
  9723 29145 2921a 4a6e 4a76 97e0 2940a 4ab2 29496 980b 980b 9829 295b6 98e2 4b33 9929 99a7 99c2
  99fe 4bce 29b30 9b12 9c40 9cfd 4cce 4ced 9d67 2a0ce 4cf8 2a105 2a20e 2a291 9ebb 4d56 9ef9 9efe
  9f05 9f0f 9f16 9f3b 2a600"

def combiningClassText : String :=
  "300-14>e6 e8 1-3>dc e8 d8 1-4>dc 1-1>ca 1-3>dc 1-1>ca 1-a>dc 1-4>1 1-3>dc 1-7>e6 f0 e6 1-2>dc
  1-2>e6 1-1>dc 2-2>e6 1-3>dc e6 e8 1-1>dc e6 e9 1-1>ea e9 1-1>ea e9 1-c>e6 114-4>e6 10a>dc 1-3>e6
  dc 1-2>e6 de dc 1-5>e6 1-5>dc 1-1>e6 dc 1-1>e6 de e4 e6 a b c d e f 10 11 12 1-1>13 14 15 16 2>17
  2>18 19 2>e6 dc 2>12 49-7>e6 1e 1f 20 31>1b 1c 1d 1e 1f 20 21 22 1-1>e6 1-1>dc 1-4>e6 dc 1-1>e6
  dc 11>23 66-6>e6 3-3>e6 dc e6 3-1>e6 2>dc 1-1>e6 dc 24>24 1f>e6 dc 1-1>e6 dc 1-1>e6 1-2>dc e6
  1-1>dc e6 dc 1-2>e6 dc e6 dc e6 dc e6 dc 1-1>e6 a1-6>e6 dc e6 a>dc 19-3>e6 2-8>e6 2-2>e6 2-4>e6
  2c-2>dc 3d>e6 1-2>dc 1-3>e6 2b-4>e6 1-4>dc 1-d>e6 2>dc 1-1>e6 dc 1-1>e6 dc 1-2>e6 1-2>dc 1b 1c 1d
  1-2>e6 dc 1-1>e6 1-1>dc 1-4>e6 3d>7 11>9 4>e6 dc 1-1>e6 68>7 11>9 31>e6 3e>7 11>9 6f>7 11>9 6f>7
  11>9 80>9 6f>7 11>9 8>54 5b 66>7 11>9 6e-1>9 11>9 7d>9 6e-1>67 9 e-3>6b 6d-1>76 9 e-3>7a 4d-1>dc
  1c>dc 2>dc 2>d8 38>81 82 2>84 6-3>82 3>82 2-1>e6 9 2-1>e6 3f>dc 71>7 2-1>9 53>dc 2d0-2>e6 3b5-1>9
  1f>9 9e>9 b>e6 cc>e4 90>de e6 dc dc>e6 dc 48>9 15-7>e6 3>dc 31-4>e6 1-5>dc 1-1>e6 dc 2-1>dc
  1-1>e6 1-1>dc 1-4>e6 dc 1-3>e6 66>7 10>9 27>e6 dc 1-6>e6 37-1>9 3b>7 c-1>9 44>7 99-2>e6 2>1
  1-4>dc 1-1>e6 1-3>dc e6 2-6>1 5>dc 7>e6 4-1>e6 c7-1>e6 dc 1-6>e6 dc 1-1>e6 ea d6 dc ca 1-24>e6 e8
  1-1>e4 dc da e6 e9 dc e6 dc 2d1-1>e6 1-1>1 1-3>e6 1-2>1 1-1>e6 5>e6 4-1>1 e6 dc e6 1-1>1 1-3>dc
  e6 bff-2>e6 8e>9 61-1f>e6 22b>da e4 e8 de 1-1>e0 6a-1>8 75d5>e6 5-9>e6 21-1>e6 51-1>e6 115>9 26>9
  98>9 1c-11>e6 3a-2>dc 26>9 60>7 d>9 f0>e6 2-1>e6 dc 3-1>e6 6-1>e6 2>e6 35>9 f7>9 4f31>1a 302-6>e6
  1-6>dc 1-1>e6 3ce>dc e3>dc 96-4>e6 693>dc 2>e6 29>e6 1 dc 5>9 a6>e6 dc 23e-3>e6 184-1>e6 9a-1>dc
  1-2>e6 dc e6 1-3>dc 32>e6 dc e6 dc c1>9 2a>9 f>9 3a>9 7 46-2>e6 31-1>9 3f>7 4d>9 a>7 6b>9 7 b3>7
  9 51-1>7 11>9 19-6>e6 4-4>e6 ce>9 4>7 18>e6 64>9 7 fc>9 7 7f>9 77>9 7 74>9 10e>9 7 103-1>9 5>7
  9d>9 54>9 13>9 52>9 1a6>9 103>7 2-1>9 52>9 4d59-4>1 3c-6>e6 4ba-1>6 4cad>1 14c7-1>d8 1-2>1 4>e2
  1-4>d8 9-7>dc 3-4>e6 1-1>dc 1f-3>e6 95-2>e6 dbc-6>e6 2-10>e6 3-6>e6 2-1>e6 2-4>e6 106-6>e6 178>e6
  3e-3>e6 5e1-6>dc 6e-5>e6 7"

def compositeRanges : CodeRanges := CodeRanges.read
  "c0-5 2-8 2-5 3-4 3-5 2-8 2-5 3-4 2-10 3-13 3-8 4-3 2-5 5-5 4-5 3-11 3-16 22-1 e-1 1d-f 2-5 3-a
  4-1 3-23 3-1 7-d 153 2-2 2 2-2 1a-6 1a-4 32-1 2 4 5-2 b 20 17-1 2 4 5-2 18-1 4a-1 e-3 3-1 3-5 3-5
  3-b 3-1 129-4 9a 2 11 256 8 3 97-1 17c 3-1 48 36-2 7c 78 7-1 2-1 7f-2 8e 2-2 248 ae0 2 2 2 2 4 29
  2 3-1 2 2bd-99 7-59 7-15 3-5 3-25 3-5 3-7 2 2 2 2-11 2 2 2 2 2 2 4-34 2-4 2 6-2 2-2 2 2 4-2 4-4
  6-2 2-6 2 6-2 2-2 2 2 1050 2 2 2 2 2 2 2 2 2 2 2 3 2 2 7-1 2-1 2-1 2-1 2-1 17 a e 2 2 2 2 2 2 2 2
  2 2 2 3 2 2 7-1 2-1 2-1 2-1 2-1 17 3-3 4 df9c 2 f 83-1 21c-1 16f-1 2 fc-1 37d"

end LoopEscape.Text
