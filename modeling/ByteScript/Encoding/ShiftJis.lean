import ByteScript.Encoding.Charset

/-!
# Shift_JIS

A character takes one byte, as in ASCII or as a katakana of half width, or a lead byte and a trail
byte that point into the table of JIS X 0208 with the extensions of two vendors. The table has some
characters in more than one place, and a text is written with one of them; so bytes that were
decoded need not come back.

* `ShiftJis.signs`, `ShiftJis.numerals`, `ShiftJis.kanji`, `ShiftJis.repeated`, `ShiftJis.added`:
  the table; `ShiftJis.writtenParts`, `ShiftJis.parts`: where its parts start;
* `ShiftJis.charAt?`, `ShiftJis.place?`: the table by places and by characters;
* `ShiftJis.leadOffset?`, `ShiftJis.trailOffset?`, `ShiftJis.pairOf`: the two bytes of a place;
* `ShiftJis.decodeChar?`, `ShiftJis.encodeChar?`: the first character of bytes, and the form of one;
* `Charset.shiftJis`: the character set.
-/

namespace ByteScript

namespace ShiftJis

/-! ## The table

Each string has the characters of 16 places; a blank, or the end of a string, is a place without
one. -/

/-- Signs, figures, letters and kana. -/
def signs : List String :=
  ["　、。，．・：；？！゛゜´｀¨＾", "￣＿ヽヾゝゞ〃仝々〆〇ー―‐／＼", "～∥｜…‥‘’“”（）〔〕［］｛", "｝〈〉《》「」『』【】＋－±×÷",
    "＝≠＜＞≦≧∞∴♂♀°′″℃￥＄", "￠￡％＃＆＊＠§☆★○●◎◇◆□", "■△▲▽▼※〒→←↑↓〓", "       ∈∋⊆⊇⊂⊃∪∩",
    "       ∧∨￢⇒⇔∀∃", "         ∠⊥⌒∂∇≡≒", "≪≫√∽∝∵∫∬       Å", "‰♯♭♪†‡¶    ◯",
    "           ０１２３４", "５６７８９       ＡＢＣＤ", "ＥＦＧＨＩＪＫＬＭＮＯＰＱＲＳＴ", "ＵＶＷＸＹＺ      ａｂｃｄ",
    "ｅｆｇｈｉｊｋｌｍｎｏｐｑｒｓｔ", "ｕｖｗｘｙｚ    ぁあぃいぅう", "ぇえぉおかがきぎくぐけげこごさざ", "しじすずせぜそぞただちぢっつづて",
    "でとどなにぬねのはばぱひびぴふぶ", "ぷへべぺほぼぽまみむめもゃやゅゆ", "ょよらりるれろゎわゐゑをん", "        ァアィイゥウェエ",
    "ォオカガキギクグケゲコゴサザシジ", "スズセゼソゾタダチヂッツヅテデト", "ドナニヌネノハバパヒビピフブプヘ", "ベペホボポマミムメモャヤュユョヨ",
    "ラリルレロヮワヰヱヲンヴヵヶ", "      ΑΒΓΔΕΖΗΘΙΚ", "ΛΜΝΞΟΠΡΣΤΥΦΧΨΩ", "      αβγδεζηθικ",
    "λμνξοπρστυφχψω", "", "", "    АБВГДЕЁЖЗИЙК",
    "ЛМНОПРСТУФХЦЧШЩЪ", "ЫЬЭЮЯ", "    абвгдеёжзийк", "лмнопрстуфхцчшщъ",
    "ыьэюя", "  ─│┌┐┘└├┬┤┴┼━┃┏", "┓┛┗┣┳┫┻╋┠┯┨┷┿┝┰┥", "┸╂"]

/-- Numerals, units and signs of one vendor. -/
def numerals : List String :=
  ["①②③④⑤⑥⑦⑧⑨⑩⑪⑫⑬⑭⑮⑯", "⑰⑱⑲⑳ⅠⅡⅢⅣⅤⅥⅦⅧⅨⅩ ㍉", "㌔㌢㍍㌘㌧㌃㌶㍑㍗㌍㌦㌣㌫㍊㌻㎜", "㎝㎞㎎㎏㏄㎡        ㍻〝",
    "〟№㏍℡㊤㊥㊦㊧㊨㈱㈲㈹㍾㍽㍼≒", "≡∫∮∑√⊥∠∟⊿∵∩∪"]

/-- Kanji. -/
def kanji : List String :=
  ["亜唖娃阿哀愛挨姶逢葵茜穐悪握渥旭", "葦芦鯵梓圧斡扱宛姐虻飴絢綾鮎或粟", "袷安庵按暗案闇鞍杏以伊位依偉囲夷", "委威尉惟意慰易椅為畏異移維緯胃萎",
    "衣謂違遺医井亥域育郁磯一壱溢逸稲", "茨芋鰯允印咽員因姻引飲淫胤蔭院陰", "隠韻吋右宇烏羽迂雨卯鵜窺丑碓臼渦", "嘘唄欝蔚鰻姥厩浦瓜閏噂云運雲荏餌",
    "叡営嬰影映曳栄永泳洩瑛盈穎頴英衛", "詠鋭液疫益駅悦謁越閲榎厭円園堰奄", "宴延怨掩援沿演炎焔煙燕猿縁艶苑薗", "遠鉛鴛塩於汚甥凹央奥往応押旺横欧",
    "殴王翁襖鴬鴎黄岡沖荻億屋憶臆桶牡", "乙俺卸恩温穏音下化仮何伽価佳加可", "嘉夏嫁家寡科暇果架歌河火珂禍禾稼", "箇花苛茄荷華菓蝦課嘩貨迦過霞蚊俄",
    "峨我牙画臥芽蛾賀雅餓駕介会解回塊", "壊廻快怪悔恢懐戒拐改魁晦械海灰界", "皆絵芥蟹開階貝凱劾外咳害崖慨概涯", "碍蓋街該鎧骸浬馨蛙垣柿蛎鈎劃嚇各",
    "廓拡撹格核殻獲確穫覚角赫較郭閣隔", "革学岳楽額顎掛笠樫橿梶鰍潟割喝恰", "括活渇滑葛褐轄且鰹叶椛樺鞄株兜竃", "蒲釜鎌噛鴨栢茅萱粥刈苅瓦乾侃冠寒",
    "刊勘勧巻喚堪姦完官寛干幹患感慣憾", "換敢柑桓棺款歓汗漢澗潅環甘監看竿", "管簡緩缶翰肝艦莞観諌貫還鑑間閑関", "陥韓館舘丸含岸巌玩癌眼岩翫贋雁頑",
    "顔願企伎危喜器基奇嬉寄岐希幾忌揮", "机旗既期棋棄機帰毅気汽畿祈季稀紀", "徽規記貴起軌輝飢騎鬼亀偽儀妓宜戯", "技擬欺犠疑祇義蟻誼議掬菊鞠吉吃喫",
    "桔橘詰砧杵黍却客脚虐逆丘久仇休及", "吸宮弓急救朽求汲泣灸球究窮笈級糾", "給旧牛去居巨拒拠挙渠虚許距鋸漁禦", "魚亨享京供侠僑兇競共凶協匡卿叫喬",
    "境峡強彊怯恐恭挟教橋況狂狭矯胸脅", "興蕎郷鏡響饗驚仰凝尭暁業局曲極玉", "桐粁僅勤均巾錦斤欣欽琴禁禽筋緊芹", "菌衿襟謹近金吟銀九倶句区狗玖矩苦",
    "躯駆駈駒具愚虞喰空偶寓遇隅串櫛釧", "屑屈掘窟沓靴轡窪熊隈粂栗繰桑鍬勲", "君薫訓群軍郡卦袈祁係傾刑兄啓圭珪", "型契形径恵慶慧憩掲携敬景桂渓畦稽",
    "系経継繋罫茎荊蛍計詣警軽頚鶏芸迎", "鯨劇戟撃激隙桁傑欠決潔穴結血訣月", "件倹倦健兼券剣喧圏堅嫌建憲懸拳捲", "検権牽犬献研硯絹県肩見謙賢軒遣鍵",
    "険顕験鹸元原厳幻弦減源玄現絃舷言", "諺限乎個古呼固姑孤己庫弧戸故枯湖", "狐糊袴股胡菰虎誇跨鈷雇顧鼓五互伍", "午呉吾娯後御悟梧檎瑚碁語誤護醐乞",
    "鯉交佼侯候倖光公功効勾厚口向后喉", "坑垢好孔孝宏工巧巷幸広庚康弘恒慌", "抗拘控攻昂晃更杭校梗構江洪浩港溝", "甲皇硬稿糠紅紘絞綱耕考肯肱腔膏航",
    "荒行衡講貢購郊酵鉱砿鋼閤降項香高", "鴻剛劫号合壕拷濠豪轟麹克刻告国穀", "酷鵠黒獄漉腰甑忽惚骨狛込此頃今困", "坤墾婚恨懇昏昆根梱混痕紺艮魂些佐",
    "叉唆嵯左差査沙瑳砂詐鎖裟坐座挫債", "催再最哉塞妻宰彩才採栽歳済災采犀", "砕砦祭斎細菜裁載際剤在材罪財冴坂", "阪堺榊肴咲崎埼碕鷺作削咋搾昨朔柵",
    "窄策索錯桜鮭笹匙冊刷察拶撮擦札殺", "薩雑皐鯖捌錆鮫皿晒三傘参山惨撒散", "桟燦珊産算纂蚕讃賛酸餐斬暫残仕仔", "伺使刺司史嗣四士始姉姿子屍市師志",
    "思指支孜斯施旨枝止死氏獅祉私糸紙", "紫肢脂至視詞詩試誌諮資賜雌飼歯事", "似侍児字寺慈持時次滋治爾璽痔磁示", "而耳自蒔辞汐鹿式識鴫竺軸宍雫七叱",
    "執失嫉室悉湿漆疾質実蔀篠偲柴芝屡", "蕊縞舎写射捨赦斜煮社紗者謝車遮蛇", "邪借勺尺杓灼爵酌釈錫若寂弱惹主取", "守手朱殊狩珠種腫趣酒首儒受呪寿授",
    "樹綬需囚収周宗就州修愁拾洲秀秋終", "繍習臭舟蒐衆襲讐蹴輯週酋酬集醜什", "住充十従戎柔汁渋獣縦重銃叔夙宿淑", "祝縮粛塾熟出術述俊峻春瞬竣舜駿准",
    "循旬楯殉淳準潤盾純巡遵醇順処初所", "暑曙渚庶緒署書薯藷諸助叙女序徐恕", "鋤除傷償勝匠升召哨商唱嘗奨妾娼宵", "将小少尚庄床廠彰承抄招掌捷昇昌昭",
    "晶松梢樟樵沼消渉湘焼焦照症省硝礁", "祥称章笑粧紹肖菖蒋蕉衝裳訟証詔詳", "象賞醤鉦鍾鐘障鞘上丈丞乗冗剰城場", "壌嬢常情擾条杖浄状畳穣蒸譲醸錠嘱",
    "埴飾拭植殖燭織職色触食蝕辱尻伸信", "侵唇娠寝審心慎振新晋森榛浸深申疹", "真神秦紳臣芯薪親診身辛進針震人仁", "刃塵壬尋甚尽腎訊迅陣靭笥諏須酢図",
    "厨逗吹垂帥推水炊睡粋翠衰遂酔錐錘", "随瑞髄崇嵩数枢趨雛据杉椙菅頗雀裾", "澄摺寸世瀬畝是凄制勢姓征性成政整", "星晴棲栖正清牲生盛精聖声製西誠誓",
    "請逝醒青静斉税脆隻席惜戚斥昔析石", "積籍績脊責赤跡蹟碩切拙接摂折設窃", "節説雪絶舌蝉仙先千占宣専尖川戦扇", "撰栓栴泉浅洗染潜煎煽旋穿箭線繊羨",
    "腺舛船薦詮賎践選遷銭銑閃鮮前善漸", "然全禅繕膳糎噌塑岨措曾曽楚狙疏疎", "礎祖租粗素組蘇訴阻遡鼠僧創双叢倉", "喪壮奏爽宋層匝惣想捜掃挿掻操早曹",
    "巣槍槽漕燥争痩相窓糟総綜聡草荘葬", "蒼藻装走送遭鎗霜騒像増憎臓蔵贈造", "促側則即息捉束測足速俗属賊族続卒", "袖其揃存孫尊損村遜他多太汰詑唾堕",
    "妥惰打柁舵楕陀駄騨体堆対耐岱帯待", "怠態戴替泰滞胎腿苔袋貸退逮隊黛鯛", "代台大第醍題鷹滝瀧卓啄宅托択拓沢", "濯琢託鐸濁諾茸凧蛸只叩但達辰奪脱",
    "巽竪辿棚谷狸鱈樽誰丹単嘆坦担探旦", "歎淡湛炭短端箪綻耽胆蛋誕鍛団壇弾", "断暖檀段男談値知地弛恥智池痴稚置", "致蜘遅馳築畜竹筑蓄逐秩窒茶嫡着中",
    "仲宙忠抽昼柱注虫衷註酎鋳駐樗瀦猪", "苧著貯丁兆凋喋寵帖帳庁弔張彫徴懲", "挑暢朝潮牒町眺聴脹腸蝶調諜超跳銚", "長頂鳥勅捗直朕沈珍賃鎮陳津墜椎槌",
    "追鎚痛通塚栂掴槻佃漬柘辻蔦綴鍔椿", "潰坪壷嬬紬爪吊釣鶴亭低停偵剃貞呈", "堤定帝底庭廷弟悌抵挺提梯汀碇禎程", "締艇訂諦蹄逓邸鄭釘鼎泥摘擢敵滴的",
    "笛適鏑溺哲徹撤轍迭鉄典填天展店添", "纏甜貼転顛点伝殿澱田電兎吐堵塗妬", "屠徒斗杜渡登菟賭途都鍍砥砺努度土", "奴怒倒党冬凍刀唐塔塘套宕島嶋悼投",
    "搭東桃梼棟盗淘湯涛灯燈当痘祷等答", "筒糖統到董蕩藤討謄豆踏逃透鐙陶頭", "騰闘働動同堂導憧撞洞瞳童胴萄道銅", "峠鴇匿得徳涜特督禿篤毒独読栃橡凸",
    "突椴届鳶苫寅酉瀞噸屯惇敦沌豚遁頓", "呑曇鈍奈那内乍凪薙謎灘捺鍋楢馴縄", "畷南楠軟難汝二尼弐迩匂賑肉虹廿日", "乳入如尿韮任妊忍認濡禰祢寧葱猫熱",
    "年念捻撚燃粘乃廼之埜嚢悩濃納能脳", "膿農覗蚤巴把播覇杷波派琶破婆罵芭", "馬俳廃拝排敗杯盃牌背肺輩配倍培媒", "梅楳煤狽買売賠陪這蝿秤矧萩伯剥博",
    "拍柏泊白箔粕舶薄迫曝漠爆縛莫駁麦", "函箱硲箸肇筈櫨幡肌畑畠八鉢溌発醗", "髪伐罰抜筏閥鳩噺塙蛤隼伴判半反叛", "帆搬斑板氾汎版犯班畔繁般藩販範釆",
    "煩頒飯挽晩番盤磐蕃蛮匪卑否妃庇彼", "悲扉批披斐比泌疲皮碑秘緋罷肥被誹", "費避非飛樋簸備尾微枇毘琵眉美鼻柊", "稗匹疋髭彦膝菱肘弼必畢筆逼桧姫媛",
    "紐百謬俵彪標氷漂瓢票表評豹廟描病", "秒苗錨鋲蒜蛭鰭品彬斌浜瀕貧賓頻敏", "瓶不付埠夫婦富冨布府怖扶敷斧普浮", "父符腐膚芙譜負賦赴阜附侮撫武舞葡",
    "蕪部封楓風葺蕗伏副復幅服福腹複覆", "淵弗払沸仏物鮒分吻噴墳憤扮焚奮粉", "糞紛雰文聞丙併兵塀幣平弊柄並蔽閉", "陛米頁僻壁癖碧別瞥蔑箆偏変片篇編",
    "辺返遍便勉娩弁鞭保舗鋪圃捕歩甫補", "輔穂募墓慕戊暮母簿菩倣俸包呆報奉", "宝峰峯崩庖抱捧放方朋法泡烹砲縫胞", "芳萌蓬蜂褒訪豊邦鋒飽鳳鵬乏亡傍剖",
    "坊妨帽忘忙房暴望某棒冒紡肪膨謀貌", "貿鉾防吠頬北僕卜墨撲朴牧睦穆釦勃", "没殆堀幌奔本翻凡盆摩磨魔麻埋妹昧", "枚毎哩槙幕膜枕鮪柾鱒桝亦俣又抹末",
    "沫迄侭繭麿万慢満漫蔓味未魅巳箕岬", "密蜜湊蓑稔脈妙粍民眠務夢無牟矛霧", "鵡椋婿娘冥名命明盟迷銘鳴姪牝滅免", "棉綿緬面麺摸模茂妄孟毛猛盲網耗蒙",
    "儲木黙目杢勿餅尤戻籾貰問悶紋門匁", "也冶夜爺耶野弥矢厄役約薬訳躍靖柳", "薮鑓愉愈油癒諭輸唯佑優勇友宥幽悠", "憂揖有柚湧涌猶猷由祐裕誘遊邑郵雄",
    "融夕予余与誉輿預傭幼妖容庸揚揺擁", "曜楊様洋溶熔用窯羊耀葉蓉要謡踊遥", "陽養慾抑欲沃浴翌翼淀羅螺裸来莱頼", "雷洛絡落酪乱卵嵐欄濫藍蘭覧利吏履",
    "李梨理璃痢裏裡里離陸律率立葎掠略", "劉流溜琉留硫粒隆竜龍侶慮旅虜了亮", "僚両凌寮料梁涼猟療瞭稜糧良諒遼量", "陵領力緑倫厘林淋燐琳臨輪隣鱗麟瑠",
    "塁涙累類令伶例冷励嶺怜玲礼苓鈴隷", "零霊麗齢暦歴列劣烈裂廉恋憐漣煉簾", "練聯蓮連錬呂魯櫓炉賂路露労婁廊弄", "朗楼榔浪漏牢狼篭老聾蝋郎六麓禄肋",
    "録論倭和話歪賄脇惑枠鷲亙亘鰐詫藁", "蕨椀湾碗腕", "", "",
    "弌丐丕个丱丶丼丿乂乖乘亂亅豫亊舒", "弍于亞亟亠亢亰亳亶从仍仄仆仂仗仞", "仭仟价伉佚估佛佝佗佇佶侈侏侘佻佩", "佰侑佯來侖儘俔俟俎俘俛俑俚俐俤俥",
    "倚倨倔倪倥倅伜俶倡倩倬俾俯們倆偃", "假會偕偐偈做偖偬偸傀傚傅傴傲僉僊", "傳僂僖僞僥僭僣僮價僵儉儁儂儖儕儔", "儚儡儺儷儼儻儿兀兒兌兔兢竸兩兪兮",
    "冀冂囘册冉冏冑冓冕冖冤冦冢冩冪冫", "决冱冲冰况冽凅凉凛几處凩凭凰凵凾", "刄刋刔刎刧刪刮刳刹剏剄剋剌剞剔剪", "剴剩剳剿剽劍劔劒剱劈劑辨辧劬劭劼",
    "劵勁勍勗勞勣勦飭勠勳勵勸勹匆匈甸", "匍匐匏匕匚匣匯匱匳匸區卆卅丗卉卍", "凖卞卩卮夘卻卷厂厖厠厦厥厮厰厶參", "簒雙叟曼燮叮叨叭叺吁吽呀听吭吼吮",
    "吶吩吝呎咏呵咎呟呱呷呰咒呻咀呶咄", "咐咆哇咢咸咥咬哄哈咨咫哂咤咾咼哘", "哥哦唏唔哽哮哭哺哢唹啀啣啌售啜啅", "啖啗唸唳啝喙喀咯喊喟啻啾喘喞單啼",
    "喃喩喇喨嗚嗅嗟嗄嗜嗤嗔嘔嗷嘖嗾嗽", "嘛嗹噎噐營嘴嘶嘲嘸噫噤嘯噬噪嚆嚀", "嚊嚠嚔嚏嚥嚮嚶嚴囂嚼囁囃囀囈囎囑", "囓囗囮囹圀囿圄圉圈國圍圓團圖嗇圜",
    "圦圷圸坎圻址坏坩埀垈坡坿垉垓垠垳", "垤垪垰埃埆埔埒埓堊埖埣堋堙堝塲堡", "塢塋塰毀塒堽塹墅墹墟墫墺壞墻墸墮", "壅壓壑壗壙壘壥壜壤壟壯壺壹壻壼壽",
    "夂夊夐夛梦夥夬夭夲夸夾竒奕奐奎奚", "奘奢奠奧奬奩奸妁妝佞侫妣妲姆姨姜", "妍姙姚娥娟娑娜娉娚婀婬婉娵娶婢婪", "媚媼媾嫋嫂媽嫣嫗嫦嫩嫖嫺嫻嬌嬋嬖",
    "嬲嫐嬪嬶嬾孃孅孀孑孕孚孛孥孩孰孳", "孵學斈孺宀它宦宸寃寇寉寔寐寤實寢", "寞寥寫寰寶寳尅將專對尓尠尢尨尸尹", "屁屆屎屓屐屏孱屬屮乢屶屹岌岑岔妛",
    "岫岻岶岼岷峅岾峇峙峩峽峺峭嶌峪崋", "崕崗嵜崟崛崑崔崢崚崙崘嵌嵒嵎嵋嵬", "嵳嵶嶇嶄嶂嶢嶝嶬嶮嶽嶐嶷嶼巉巍巓", "巒巖巛巫已巵帋帚帙帑帛帶帷幄幃幀",
    "幎幗幔幟幢幤幇幵并幺麼广庠廁廂廈", "廐廏廖廣廝廚廛廢廡廨廩廬廱廳廰廴", "廸廾弃弉彝彜弋弑弖弩弭弸彁彈彌彎", "弯彑彖彗彙彡彭彳彷徃徂彿徊很徑徇",
    "從徙徘徠徨徭徼忖忻忤忸忱忝悳忿怡", "恠怙怐怩怎怱怛怕怫怦怏怺恚恁恪恷", "恟恊恆恍恣恃恤恂恬恫恙悁悍惧悃悚", "悄悛悖悗悒悧悋惡悸惠惓悴忰悽惆悵",
    "惘慍愕愆惶惷愀惴惺愃愡惻惱愍愎慇", "愾愨愧慊愿愼愬愴愽慂慄慳慷慘慙慚", "慫慴慯慥慱慟慝慓慵憙憖憇憬憔憚憊", "憑憫憮懌懊應懷懈懃懆憺懋罹懍懦懣",
    "懶懺懴懿懽懼懾戀戈戉戍戌戔戛戞戡", "截戮戰戲戳扁扎扞扣扛扠扨扼抂抉找", "抒抓抖拔抃抔拗拑抻拏拿拆擔拈拜拌", "拊拂拇抛拉挌拮拱挧挂挈拯拵捐挾捍",
    "搜捏掖掎掀掫捶掣掏掉掟掵捫捩掾揩", "揀揆揣揉插揶揄搖搴搆搓搦搶攝搗搨", "搏摧摯摶摎攪撕撓撥撩撈撼據擒擅擇", "撻擘擂擱擧舉擠擡抬擣擯攬擶擴擲擺",
    "攀擽攘攜攅攤攣攫攴攵攷收攸畋效敖", "敕敍敘敞敝敲數斂斃變斛斟斫斷旃旆", "旁旄旌旒旛旙无旡旱杲昊昃旻杳昵昶", "昴昜晏晄晉晁晞晝晤晧晨晟晢晰暃暈",
    "暎暉暄暘暝曁暹曉暾暼曄暸曖曚曠昿", "曦曩曰曵曷朏朖朞朦朧霸朮朿朶杁朸", "朷杆杞杠杙杣杤枉杰枩杼杪枌枋枦枡", "枅枷柯枴柬枳柩枸柤柞柝柢柮枹柎柆",
    "柧檜栞框栩桀桍栲桎梳栫桙档桷桿梟", "梏梭梔條梛梃檮梹桴梵梠梺椏梍桾椁", "棊椈棘椢椦棡椌棍棔棧棕椶椒椄棗棣", "椥棹棠棯椨椪椚椣椡棆楹楷楜楸楫楔",
    "楾楮椹楴椽楙椰楡楞楝榁楪榲榮槐榿", "槁槓榾槎寨槊槝榻槃榧樮榑榠榜榕榴", "槞槨樂樛槿權槹槲槧樅榱樞槭樔槫樊", "樒櫁樣樓橄樌橲樶橸橇橢橙橦橈樸樢",
    "檐檍檠檄檢檣檗蘗檻櫃櫂檸檳檬櫞櫑", "櫟檪櫚櫪櫻欅蘖櫺欒欖鬱欟欸欷盜欹", "飮歇歃歉歐歙歔歛歟歡歸歹歿殀殄殃", "殍殘殕殞殤殪殫殯殲殱殳殷殼毆毋毓",
    "毟毬毫毳毯麾氈氓气氛氤氣汞汕汢汪", "沂沍沚沁沛汾汨汳沒沐泄泱泓沽泗泅", "泝沮沱沾沺泛泯泙泪洟衍洶洫洽洸洙", "洵洳洒洌浣涓浤浚浹浙涎涕濤涅淹渕",
    "渊涵淇淦涸淆淬淞淌淨淒淅淺淙淤淕", "淪淮渭湮渮渙湲湟渾渣湫渫湶湍渟湃", "渺湎渤滿渝游溂溪溘滉溷滓溽溯滄溲", "滔滕溏溥滂溟潁漑灌滬滸滾漿滲漱滯",
    "漲滌漾漓滷澆潺潸澁澀潯潛濳潭澂潼", "潘澎澑濂潦澳澣澡澤澹濆澪濟濕濬濔", "濘濱濮濛瀉瀋濺瀑瀁瀏濾瀛瀚潴瀝瀘", "瀟瀰瀾瀲灑灣炙炒炯烱炬炸炳炮烟烋",
    "烝烙焉烽焜焙煥煕熈煦煢煌煖煬熏燻", "熄熕熨熬燗熹熾燒燉燔燎燠燬燧燵燼", "燹燿爍爐爛爨爭爬爰爲爻爼爿牀牆牋", "牘牴牾犂犁犇犒犖犢犧犹犲狃狆狄狎",
    "狒狢狠狡狹狷倏猗猊猜猖猝猴猯猩猥", "猾獎獏默獗獪獨獰獸獵獻獺珈玳珎玻", "珀珥珮珞璢琅瑯琥珸琲琺瑕琿瑟瑙瑁", "瑜瑩瑰瑣瑪瑶瑾璋璞璧瓊瓏瓔珱瓠瓣",
    "瓧瓩瓮瓲瓰瓱瓸瓷甄甃甅甌甎甍甕甓", "甞甦甬甼畄畍畊畉畛畆畚畩畤畧畫畭", "畸當疆疇畴疊疉疂疔疚疝疥疣痂疳痃", "疵疽疸疼疱痍痊痒痙痣痞痾痿痼瘁痰",
    "痺痲痳瘋瘍瘉瘟瘧瘠瘡瘢瘤瘴瘰瘻癇", "癈癆癜癘癡癢癨癩癪癧癬癰癲癶癸發", "皀皃皈皋皎皖皓皙皚皰皴皸皹皺盂盍", "盖盒盞盡盥盧盪蘯盻眈眇眄眩眤眞眥",
    "眦眛眷眸睇睚睨睫睛睥睿睾睹瞎瞋瞑", "瞠瞞瞰瞶瞹瞿瞼瞽瞻矇矍矗矚矜矣矮", "矼砌砒礦砠礪硅碎硴碆硼碚碌碣碵碪", "碯磑磆磋磔碾碼磅磊磬磧磚磽磴礇礒",
    "礑礙礬礫祀祠祗祟祚祕祓祺祿禊禝禧", "齋禪禮禳禹禺秉秕秧秬秡秣稈稍稘稙", "稠稟禀稱稻稾稷穃穗穉穡穢穩龝穰穹", "穽窈窗窕窘窖窩竈窰窶竅竄窿邃竇竊",
    "竍竏竕竓站竚竝竡竢竦竭竰笂笏笊笆", "笳笘笙笞笵笨笶筐筺笄筍笋筌筅筵筥", "筴筧筰筱筬筮箝箘箟箍箜箚箋箒箏筝", "箙篋篁篌篏箴篆篝篩簑簔篦篥籠簀簇",
    "簓篳篷簗簍篶簣簧簪簟簷簫簽籌籃籔", "籏籀籐籘籟籤籖籥籬籵粃粐粤粭粢粫", "粡粨粳粲粱粮粹粽糀糅糂糘糒糜糢鬻", "糯糲糴糶糺紆紂紜紕紊絅絋紮紲紿紵",
    "絆絳絖絎絲絨絮絏絣經綉絛綏絽綛綺", "綮綣綵緇綽綫總綢綯緜綸綟綰緘緝緤", "緞緻緲緡縅縊縣縡縒縱縟縉縋縢繆繦", "縻縵縹繃縷縲縺繧繝繖繞繙繚繹繪繩",
    "繼繻纃緕繽辮繿纈纉續纒纐纓纔纖纎", "纛纜缸缺罅罌罍罎罐网罕罔罘罟罠罨", "罩罧罸羂羆羃羈羇羌羔羞羝羚羣羯羲", "羹羮羶羸譱翅翆翊翕翔翡翦翩翳翹飜",
    "耆耄耋耒耘耙耜耡耨耿耻聊聆聒聘聚", "聟聢聨聳聲聰聶聹聽聿肄肆肅肛肓肚", "肭冐肬胛胥胙胝胄胚胖脉胯胱脛脩脣", "脯腋隋腆脾腓腑胼腱腮腥腦腴膃膈膊",
    "膀膂膠膕膤膣腟膓膩膰膵膾膸膽臀臂", "膺臉臍臑臙臘臈臚臟臠臧臺臻臾舁舂", "舅與舊舍舐舖舩舫舸舳艀艙艘艝艚艟", "艤艢艨艪艫舮艱艷艸艾芍芒芫芟芻芬",
    "苡苣苟苒苴苳苺莓范苻苹苞茆苜茉苙", "茵茴茖茲茱荀茹荐荅茯茫茗茘莅莚莪", "莟莢莖茣莎莇莊荼莵荳荵莠莉莨菴萓", "菫菎菽萃菘萋菁菷萇菠菲萍萢萠莽萸",
    "蔆菻葭萪萼蕚蒄葷葫蒭葮蒂葩葆萬葯", "葹萵蓊葢蒹蒿蒟蓙蓍蒻蓚蓐蓁蓆蓖蒡", "蔡蓿蓴蔗蔘蔬蔟蔕蔔蓼蕀蕣蕘蕈蕁蘂", "蕋蕕薀薤薈薑薊薨蕭薔薛藪薇薜蕷蕾",
    "薐藉薺藏薹藐藕藝藥藜藹蘊蘓蘋藾藺", "蘆蘢蘚蘰蘿虍乕虔號虧虱蚓蚣蚩蚪蚋", "蚌蚶蚯蛄蛆蚰蛉蠣蚫蛔蛞蛩蛬蛟蛛蛯", "蜒蜆蜈蜀蜃蛻蜑蜉蜍蛹蜊蜴蜿蜷蜻蜥",
    "蜩蜚蝠蝟蝸蝌蝎蝴蝗蝨蝮蝙蝓蝣蝪蠅", "螢螟螂螯蟋螽蟀蟐雖螫蟄螳蟇蟆螻蟯", "蟲蟠蠏蠍蟾蟶蟷蠎蟒蠑蠖蠕蠢蠡蠱蠶", "蠹蠧蠻衄衂衒衙衞衢衫袁衾袞衵衽袵",
    "衲袂袗袒袮袙袢袍袤袰袿袱裃裄裔裘", "裙裝裹褂裼裴裨裲褄褌褊褓襃褞褥褪", "褫襁襄褻褶褸襌褝襠襞襦襤襭襪襯襴", "襷襾覃覈覊覓覘覡覩覦覬覯覲覺覽覿",
    "觀觚觜觝觧觴觸訃訖訐訌訛訝訥訶詁", "詛詒詆詈詼詭詬詢誅誂誄誨誡誑誥誦", "誚誣諄諍諂諚諫諳諧諤諱謔諠諢諷諞", "諛謌謇謚諡謖謐謗謠謳鞫謦謫謾謨譁",
    "譌譏譎證譖譛譚譫譟譬譯譴譽讀讌讎", "讒讓讖讙讚谺豁谿豈豌豎豐豕豢豬豸", "豺貂貉貅貊貍貎貔豼貘戝貭貪貽貲貳", "貮貶賈賁賤賣賚賽賺賻贄贅贊贇贏贍",
    "贐齎贓賍贔贖赧赭赱赳趁趙跂趾趺跏", "跚跖跌跛跋跪跫跟跣跼踈踉跿踝踞踐", "踟蹂踵踰踴蹊蹇蹉蹌蹐蹈蹙蹤蹠踪蹣", "蹕蹶蹲蹼躁躇躅躄躋躊躓躑躔躙躪躡",
    "躬躰軆躱躾軅軈軋軛軣軼軻軫軾輊輅", "輕輒輙輓輜輟輛輌輦輳輻輹轅轂輾轌", "轉轆轎轗轜轢轣轤辜辟辣辭辯辷迚迥", "迢迪迯邇迴逅迹迺逑逕逡逍逞逖逋逧",
    "逶逵逹迸遏遐遑遒逎遉逾遖遘遞遨遯", "遶隨遲邂遽邁邀邊邉邏邨邯邱邵郢郤", "扈郛鄂鄒鄙鄲鄰酊酖酘酣酥酩酳酲醋", "醉醂醢醫醯醪醵醴醺釀釁釉釋釐釖釟",
    "釡釛釼釵釶鈞釿鈔鈬鈕鈑鉞鉗鉅鉉鉤", "鉈銕鈿鉋鉐銜銖銓銛鉚鋏銹銷鋩錏鋺", "鍄錮錙錢錚錣錺錵錻鍜鍠鍼鍮鍖鎰鎬", "鎭鎔鎹鏖鏗鏨鏥鏘鏃鏝鏐鏈鏤鐚鐔鐓",
    "鐃鐇鐐鐶鐫鐵鐡鐺鑁鑒鑄鑛鑠鑢鑞鑪", "鈩鑰鑵鑷鑽鑚鑼鑾钁鑿閂閇閊閔閖閘", "閙閠閨閧閭閼閻閹閾闊濶闃闍闌闕闔", "闖關闡闥闢阡阨阮阯陂陌陏陋陷陜陞",
    "陝陟陦陲陬隍隘隕隗險隧隱隲隰隴隶", "隸隹雎雋雉雍襍雜霍雕雹霄霆霈霓霎", "霑霏霖霙霤霪霰霹霽霾靄靆靈靂靉靜", "靠靤靦靨勒靫靱靹鞅靼鞁靺鞆鞋鞏鞐",
    "鞜鞨鞦鞣鞳鞴韃韆韈韋韜韭齏韲竟韶", "韵頏頌頸頤頡頷頽顆顏顋顫顯顰顱顴", "顳颪颯颱颶飄飃飆飩飫餃餉餒餔餘餡", "餝餞餤餠餬餮餽餾饂饉饅饐饋饑饒饌",
    "饕馗馘馥馭馮馼駟駛駝駘駑駭駮駱駲", "駻駸騁騏騅駢騙騫騷驅驂驀驃騾驕驍", "驛驗驟驢驥驤驩驫驪骭骰骼髀髏髑髓", "體髞髟髢髣髦髯髫髮髴髱髷髻鬆鬘鬚",
    "鬟鬢鬣鬥鬧鬨鬩鬪鬮鬯鬲魄魃魏魍魎", "魑魘魴鮓鮃鮑鮖鮗鮟鮠鮨鮴鯀鯊鮹鯆", "鯏鯑鯒鯣鯢鯤鯔鯡鰺鯲鯱鯰鰕鰔鰉鰓", "鰌鰆鰈鰒鰊鰄鰮鰛鰥鰤鰡鰰鱇鰲鱆鰾",
    "鱚鱠鱧鱶鱸鳧鳬鳰鴉鴈鳫鴃鴆鴪鴦鶯", "鴣鴟鵄鴕鴒鵁鴿鴾鵆鵈鵝鵞鵤鵑鵐鵙", "鵲鶉鶇鶫鵯鵺鶚鶤鶩鶲鷄鷁鶻鶸鶺鷆", "鷏鷂鷙鷓鷸鷦鷭鷯鷽鸚鸛鸞鹵鹹鹽麁",
    "麈麋麌麒麕麑麝麥麩麸麪麭靡黌黎黏", "黐黔黜點黝黠黥黨黯黴黶黷黹黻黼黽", "鼇鼈皷鼕鼡鼬鼾齊齒齔齣齟齠齡齦齧", "齬齪齷齲齶龕龜龠堯槇遙瑤凜熙"]

/-- Characters of one vendor that stand in other parts as well. -/
def repeated : List String :=
  ["纊褜鍈銈蓜俉炻昱棈鋹曻彅丨仡仼伀", "伃伹佖侒侊侚侔俍偀倢俿倞偆偰偂傔", "僴僘兊兤冝冾凬刕劜劦勀勛匀匇匤卲", "厓厲叝﨎咜咊咩哿喆坙坥垬埈埇﨏塚",
    "增墲夋奓奛奝奣妤妺孖寀甯寘寬尞岦", "岺峵崧嵓﨑嵂嵭嶸嶹巐弡弴彧德忞恝", "悅悊惞惕愠惲愑愷愰憘戓抦揵摠撝擎", "敎昀昕昻昉昮昞昤晥晗晙晴晳暙暠暲",
    "暿曺朎朗杦枻桒柀栁桄棏﨓楨﨔榘槢", "樰橫橆橳橾櫢櫤毖氿汜沆汯泚洄涇浯", "涖涬淏淸淲淼渹湜渧渼溿澈澵濵瀅瀇", "瀨炅炫焏焄煜煆煇凞燁燾犱犾猤猪獷",
    "玽珉珖珣珒琇珵琦琪琩琮瑢璉璟甁畯", "皂皜皞皛皦益睆劯砡硎硤硺礰礼神祥", "禔福禛竑竧靖竫箞精絈絜綷綠緖繒罇", "羡羽茁荢荿菇菶葈蒴蕓蕙蕫﨟薰蘒﨡",
    "蠇裵訒訷詹誧誾諟諸諶譓譿賰賴贒赶", "﨣軏﨤逸遧郞都鄕鄧釚釗釞釭釮釤釥", "鈆鈐鈊鈺鉀鈼鉎鉙鉑鈹鉧銧鉷鉸鋧鋗", "鋙鋐﨧鋕鋠鋓錥錡鋻﨨錞鋿錝錂鍰鍗",
    "鎤鏆鏞鏸鐱鑅鑈閒隆﨩隝隯霳霻靃靍", "靏靑靕顗顥飯飼餧館馞驎髙髜魵魲鮏", "鮱鮻鰀鵰鵫鶴鸙黑  ⅰⅱⅲⅳⅴⅵ", "ⅶⅷⅸⅹ￢￤＇＂"]

/-- Characters of another vendor. -/
def added : List String :=
  ["ⅰⅱⅲⅳⅴⅵⅶⅷⅸⅹⅠⅡⅢⅣⅤⅥ", "ⅦⅧⅨⅩ￢￤＇＂㈱№℡∵纊褜鍈銈", "蓜俉炻昱棈鋹曻彅丨仡仼伀伃伹佖侒", "侊侚侔俍偀倢俿倞偆偰偂傔僴僘兊兤",
    "冝冾凬刕劜劦勀勛匀匇匤卲厓厲叝﨎", "咜咊咩哿喆坙坥垬埈埇﨏塚增墲夋奓", "奛奝奣妤妺孖寀甯寘寬尞岦岺峵崧嵓", "﨑嵂嵭嶸嶹巐弡弴彧德忞恝悅悊惞惕",
    "愠惲愑愷愰憘戓抦揵摠撝擎敎昀昕昻", "昉昮昞昤晥晗晙晴晳暙暠暲暿曺朎朗", "杦枻桒柀栁桄棏﨓楨﨔榘槢樰橫橆橳", "橾櫢櫤毖氿汜沆汯泚洄涇浯涖涬淏淸",
    "淲淼渹湜渧渼溿澈澵濵瀅瀇瀨炅炫焏", "焄煜煆煇凞燁燾犱犾猤猪獷玽珉珖珣", "珒琇珵琦琪琩琮瑢璉璟甁畯皂皜皞皛", "皦益睆劯砡硎硤硺礰礼神祥禔福禛竑",
    "竧靖竫箞精絈絜綷綠緖繒罇羡羽茁荢", "荿菇菶葈蒴蕓蕙蕫﨟薰蘒﨡蠇裵訒訷", "詹誧誾諟諸諶譓譿賰賴贒赶﨣軏﨤逸", "遧郞都鄕鄧釚釗釞釭釮釤釥鈆鈐鈊鈺",
    "鉀鈼鉎鉙鉑鈹鉧銧鉷鉸鋧鋗鋙鋐﨧鋕", "鋠鋓錥錡鋻﨨錞鋿錝錂鍰鍗鎤鏆鏞鏸", "鐱鑅鑈閒隆﨩隝隯霳霻靃靍靏靑靕顗", "顥飯飼餧館馞驎髙髜魵魲鮏鮱鮻鰀鵰",
    "鵫鶴鸙黑"]

/-- The parts that texts are written with, and the places that they start at. -/
def writtenParts : List (Nat × List String) :=
  [(0, signs), (1128, numerals), (1410, kanji), (10716, added)]

/-- All parts of the table. -/
def parts : List (Nat × List String) := writtenParts ++ [(8272, repeated)]

/-- The character at a place. -/
def charAt? (place : Nat) : Option Char :=
  parts.findSome? fun (start, part) => do
    if place < start then none
    let row ← part[(place - start) / 16]?
    let c ← row.toList[(place - start) % 16]?
    if c = ' ' then none else some c

/-- The first place of a character in rows from the given place on. -/
def placeFrom? (c : Char) : Nat → List String → Option Nat
  | _, [] => none
  | start, row :: rows =>
    match row.toList.idxOf? c with
    | some i => some (start + i)
    | none => placeFrom? c (start + 16) rows

/-- The place that a character is written with, the first of several. -/
def place? (c : Char) : Option Nat :=
  writtenParts.findSome? fun (start, part) => placeFrom? c start part

/-! ## Bytes -/

/-- The 188 places of a lead byte, counted from the first. -/
def leadOffset? (n : Nat) : Option Nat :=
  if 0x81 ≤ n ∧ n ≤ 0x9f then some (n - 0x81)
  else if 0xe0 ≤ n ∧ n ≤ 0xfc then some (n - 0xc1)
  else none

/-- The place of a trail byte among them. -/
def trailOffset? (n : Nat) : Option Nat :=
  if 0x40 ≤ n ∧ n ≤ 0x7e then some (n - 0x40)
  else if 0x80 ≤ n ∧ n ≤ 0xfc then some (n - 0x41)
  else none

/-- The lead byte and the trail byte of a place. -/
def pairOf (place : Nat) : Bytes :=
  let lead := place / 188
  let trail := place % 188
  [UInt8.ofNat (lead + if lead < 0x1f then 0x81 else 0xc1),
    UInt8.ofNat (trail + if trail < 0x3f then 0x40 else 0x41)]

/-- The first character of a byte string and the number of its bytes. The places before the last
part are characters of private use, which no text is written with. -/
def decodeChar? : Bytes → Option (Char × Nat)
  | [] => none
  | a :: bs =>
    if a.toNat ≤ 0x80 then (char? a.toNat).map (·, 1)
    else if 0xa1 ≤ a.toNat ∧ a.toNat ≤ 0xdf then (char? (0xff61 + (a.toNat - 0xa1))).map (·, 1)
    else
      match bs with
      | [] => none
      | b :: _ => do
        let lead ← leadOffset? a.toNat
        let trail ← trailOffset? b.toNat
        let place := lead * 188 + trail
        let c ←
          if 8836 ≤ place ∧ place < 10716 then char? (0xe000 + (place - 8836)) else charAt? place
        return (c, 2)

/-- The form of a character; the minus sign is written as that of full width. -/
def encodeChar? (c : Char) : Option Bytes :=
  let n := c.toNat
  if n ≤ 0x80 then some [UInt8.ofNat n]
  else if n = 0xa5 then some [0x5c]
  else if n = 0x203e then some [0x7e]
  else if 0xff61 ≤ n ∧ n ≤ 0xff9f then some [UInt8.ofNat (0xa1 + (n - 0xff61))]
  else (place? (if c = '−' then '－' else c)).map pairOf

end ShiftJis

/-- The character set Shift_JIS. -/
def Charset.shiftJis : Charset where
  encodeChar? := ShiftJis.encodeChar?
  decodeChar? := ShiftJis.decodeChar?

/-- A letter, a katakana of half width, a kanji and a character of private use; the minus sign and
the yen sign. -/
example : Charset.shiftJis.decode? [0x41, 0xb1, 0x88, 0x9f, 0xf0, 0x40] =
    some ['A', 'ｱ', '亜', Char.ofNat 0xe000] ∧
    Charset.shiftJis.encode? ['A', 'ｱ', '−', '¥'] = some [0x41, 0xb1, 0x81, 0x7c, 0x5c] := by
  decide +kernel

end ByteScript
